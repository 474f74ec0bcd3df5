import RowLiteral.Error
import RowLiteral.Text.Blank
import RowLiteral.Text.Case

/-!
# Encoding — character sets

The encodings that a client of the server may name.  A *character set* is known by its label; the
names of the server are matched in upper case, first as they stand and then without hyphens and
underscores.  How bytes in a character set are decoded is up to the *decoders* of the machine, which
need not have one for every set.  An *encoding* is such a decoder under the name by which it was
asked for.
-/

namespace RowLiteral

/-- A character set. -/
inductive Charset where
  | utf8
  | latin1 | latin2 | latin3 | latin4 | latin5 | latin6 | latin7 | latin8 | latin9 | latin10
  | cyrillic | arabic | greek | hebrew | koi8r | koi8u | ibm866 | windows874
  | windows1250 | windows1251 | windows1252 | windows1253 | windows1254
  | windows1255 | windows1256 | windows1257 | windows1258
  | eucjp | euckr | shiftjis | big5 | gbk | gb18030
deriving DecidableEq, Repr

namespace Charset

/-- The label of a character set. -/
def label : Charset → String
  | .utf8 => "utf-8"
  | .latin1 => "iso-8859-1"
  | .latin2 => "iso-8859-2"
  | .latin3 => "iso-8859-3"
  | .latin4 => "iso-8859-4"
  | .latin5 => "iso-8859-9"
  | .latin6 => "iso-8859-10"
  | .latin7 => "iso-8859-13"
  | .latin8 => "iso-8859-14"
  | .latin9 => "iso-8859-15"
  | .latin10 => "iso-8859-16"
  | .cyrillic => "iso-8859-5"
  | .arabic => "iso-8859-6"
  | .greek => "iso-8859-7"
  | .hebrew => "iso-8859-8"
  | .koi8r => "koi8-r"
  | .koi8u => "koi8-u"
  | .ibm866 => "ibm866"
  | .windows874 => "windows-874"
  | .windows1250 => "windows-1250"
  | .windows1251 => "windows-1251"
  | .windows1252 => "windows-1252"
  | .windows1253 => "windows-1253"
  | .windows1254 => "windows-1254"
  | .windows1255 => "windows-1255"
  | .windows1256 => "windows-1256"
  | .windows1257 => "windows-1257"
  | .windows1258 => "windows-1258"
  | .eucjp => "euc-jp"
  | .euckr => "euc-kr"
  | .shiftjis => "shift_jis"
  | .big5 => "big5"
  | .gbk => "gbk"
  | .gb18030 => "gb18030"

/-- The names of the server. -/
def named : List (String × Charset) :=
  [("UTF8", .utf8),
    ("UNICODE", .utf8),
    ("SQL_ASCII", .utf8),
    ("LATIN1", .latin1),
    ("LATIN2", .latin2),
    ("LATIN3", .latin3),
    ("LATIN4", .latin4),
    ("LATIN5", .latin5),
    ("LATIN6", .latin6),
    ("LATIN7", .latin7),
    ("LATIN8", .latin8),
    ("LATIN9", .latin9),
    ("LATIN10", .latin10),
    ("ISO_8859_5", .cyrillic),
    ("ISO_8859_6", .arabic),
    ("ISO_8859_7", .greek),
    ("ISO_8859_8", .hebrew),
    ("KOI8R", .koi8r),
    ("KOI8U", .koi8u),
    ("WIN866", .ibm866),
    ("WIN874", .windows874),
    ("WIN1250", .windows1250),
    ("WIN1251", .windows1251),
    ("WIN1252", .windows1252),
    ("WIN1253", .windows1253),
    ("WIN1254", .windows1254),
    ("WIN1255", .windows1255),
    ("WIN1256", .windows1256),
    ("WIN1257", .windows1257),
    ("WIN1258", .windows1258),
    ("EUC_JP", .eucjp),
    ("EUC_KR", .euckr),
    ("SJIS", .shiftjis),
    ("BIG5", .big5),
    ("GBK", .gbk),
    ("GB18030", .gb18030)]

/-- A name without blanks around it, in upper case. -/
def upperName (name : String) : String := Text.upper (Text.trim name)

/-- A name without hyphens and underscores. -/
def joined (name : String) : String :=
  String.ofList (name.toList.filter fun c => c ≠ '-' && c ≠ '_')

/-- The character set of a name of the server, in the spelling of the list. -/
def lookup? (name : String) : Option Charset := (named.find? fun e => e.1 = name).map Prod.snd

/-- The character set that a name asks for. -/
def ofName? (name : String) : Option Charset :=
  let upper := upperName name
  (lookup? upper).or (lookup? (joined upper))

end Charset

/-- The decoders of a machine: how it decodes bytes in a character set, if it can. -/
abbrev Decoders := Charset → Option (List UInt8 → String)

/-- A name, and how bytes are decoded. -/
structure Encoding where
  name : String
  /-- The text of bytes. -/
  decode : List UInt8 → String

/-- The encoding that a name asks for on a machine with given decoders. -/
def Encoding.ofName (decoders : Decoders) (name : String) : Except CodecError Encoding :=
  match Charset.ofName? name with
  | none => .error (.unsupportedEncoding name)
  | some c =>
    match decoders c with
    | some decode => .ok ⟨Charset.upperName name, decode⟩
    | none => .error (.undecodableEncoding c.label)

end RowLiteral
