import RowLiteral.Plain.Basic

/-!
# Plain values — JSON

The JSON text of a plain value.  The members of an object are listed in the order of keys.  An
absent value has no text, nor has a row; in a list it stands as null, and as a member it is left
out.  An integer of any size cannot be written.
-/

namespace RowLiteral.Plain
open RowLiteral.Text

/-! ### Leaves -/

/-- A character inside a JSON text. -/
def jsonChar (c : Char) : List Char :=
  if c = '"' then ['\\', '"']
  else if c = '\\' then ['\\', '\\']
  else if c = '\n' then ['\\', 'n']
  else if c = '\r' then ['\\', 'r']
  else if c = '\t' then ['\\', 't']
  else if c = '\x08' then ['\\', 'b']
  else if c = '\x0c' then ['\\', 'f']
  else if c.toNat < 0x20 then
    ['\\', 'u', '0', '0', Nat.digitChar (c.toNat / 16), Nat.digitChar (c.toNat % 16)]
  else [c]

/-- A text in JSON. -/
def jsonText (s : String) : String := String.ofList ('"' :: s.toList.flatMap jsonChar ++ ['"'])

/-- A number in JSON; one that is not finite is null. -/
def jsonNumber (x : Double) : String := if x.isFinite then x.toText else "null"

/-- A list in JSON. -/
def jsonList (texts : List String) : String := "[" ++ String.intercalate "," texts ++ "]"

/-- An object in JSON. -/
def jsonObject (members : List (String × String)) : String :=
  "\x7b" ++ String.intercalate "," (members.map fun e => jsonText e.1 ++ ":" ++ e.2) ++ "\x7d"

/-- The year of a moment in the extended format: four digits, or a sign and six. -/
def isoYear (year : Int) : String :=
  if 0 ≤ year && year ≤ 9999 then Temporal.pad 4 (some year)
  else (if year < 0 then "-" else "+") ++ Temporal.pad 6 (some (year.natAbs : Int))

/-- A moment in JSON: its fields in UTC, or null. -/
def jsonMoment : Moment → String
  | none => "null"
  | some t =>
    let f := fieldsOf 0 t
    let two := fun n => Temporal.pad 2 (some n)
    let day := s!"{isoYear f.year}-{two (f.month + 1)}-{two f.day}"
    let time := s!"{two f.hours}:{two f.minutes}:{two f.seconds}.{Temporal.pad 3 (some f.millis)}"
    jsonText s!"{day}T{time}Z"

/-- Bytes in JSON: an object of the places and the numbers of the bytes. -/
def jsonBytes (bs : List UInt8) : String :=
  jsonObject (bs.mapIdx fun i b => (toString i, toString b.toNat))

/-- A point in JSON. -/
def jsonPoint (p : Point) : String := jsonObject [("x", jsonNumber p.x), ("y", jsonNumber p.y)]

/-- The payload of a scalar in JSON. -/
def jsonPayload : Scalar → Except CodecError String
  | .bool b => .ok (boolText b)
  | .int2 x | .int4 x | .float4 x | .float8 x => .ok (jsonNumber x)
  | .int8 _ => .error .integerInJson
  | .decimal d => .ok (jsonText d.toSignedText)
  | .char s | .text s => .ok (jsonText s)
  | .bytes bs => .ok (jsonBytes bs)
  | .point p => .ok (jsonPoint p)
  | .box b => .ok (jsonObject [("corners", jsonList [jsonPoint b.first, jsonPoint b.second])])
  | .object label content =>
    .ok (jsonObject [("type", jsonText label), ("value", (content.map jsonText).getD "null")])
  | .temporal _ m => .ok (jsonMoment m)

/-- A scalar in JSON: an object of its kind and its payload. -/
def jsonScalar (s : Scalar) : Except CodecError String := do
  let payload ← jsonPayload s
  return jsonObject [("kind", jsonText s.kind.name), ("value", payload)]

/-! ### Values -/

mutual
/-- The JSON text of a plain value. -/
def json? : Plain → Except CodecError (Option String)
  | .absent | .row _ | .value (.row _ _) => .ok none
  | .null => .ok (some "null")
  | .bool b => .ok (some (boolText b))
  | .number x => .ok (some (jsonNumber x))
  | .integer _ => .error .integerInJson
  | .text s => .ok (some (jsonText s))
  | .bytes bs => .ok (some (jsonBytes bs))
  | .date m => .ok (some (jsonMoment m))
  | .decimal d => .ok (some (jsonText d.toSignedText))
  | .value (.scalar s) => (jsonScalar s).map some
  | .list xs => do
    let texts ← jsonItems xs
    return some (jsonList (texts.map fun t => t.getD "null"))
  | .object members => do
    let texts ← jsonMembers members
    let present := texts.filterMap fun e => e.2.map fun t => (e.1, t)
    return some (jsonObject (Table.listed (Table.ofEntries present)))

/-- The JSON texts of the items of a list. -/
def jsonItems : List Plain → Except CodecError (List (Option String))
  | [] => .ok []
  | x :: xs => do
    let text ← json? x
    let texts ← jsonItems xs
    return text :: texts

/-- The JSON texts of the members of an object. -/
def jsonMembers : List (String × Plain) → Except CodecError (List (String × Option String))
  | [] => .ok []
  | (key, x) :: rest => do
    let text ← json? x
    let texts ← jsonMembers rest
    return (key, text) :: texts
end

/-- A plain value as a report shows it: a text as it stands, anything else in JSON. -/
def shown (limit : Int) (x : Plain) : Except CodecError String :=
  match x with
  | .text s => .ok (abbreviate limit s)
  | x => (json? x).map fun t => abbreviate limit (t.getD "undefined")

end RowLiteral.Plain
