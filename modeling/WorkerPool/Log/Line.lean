import WorkerPool.Log.Record

/-!
# Written log records

A record is written on a line of its own, either for a reader or as a JSON object. In a JSON text
the quote, the backslash and the control characters are escaped; everything else stands as it is.
-/

namespace WorkerPool.Log

/-- A hexadecimal digit. -/
def hexDigit (n : Nat) : Char := (Nat.toDigits 16 n).head?.getD '0'

/-- A character inside of a JSON text. -/
def jsonChar (c : Char) : List Char :=
  if c = '"' then ['\\', '"']
  else if c = '\\' then ['\\', '\\']
  else if c = '\n' then ['\\', 'n']
  else if c = '\r' then ['\\', 'r']
  else if c = '\t' then ['\\', 't']
  else if c = '\x08' then ['\\', 'b']
  else if c = '\x0c' then ['\\', 'f']
  else if c.toNat < 32 then ['\\', 'u', '0', '0', hexDigit (c.toNat / 16), hexDigit (c.toNat % 16)]
  else [c]

/-- A JSON text. -/
def jsonText (s : String) : String := "\"" ++ String.ofList (s.toList.flatMap jsonChar) ++ "\""

/-- A JSON object of members already written. -/
def jsonObject (members : List (String × String)) : String :=
  "\x7b" ++ ",".intercalate (members.map fun (key, value) => jsonText key ++ ":" ++ value) ++ "\x7d"

/-- A value in decimal digits or as a word. -/
def Value.text : Value → String
  | count n => Nat.repr n
  | flag b => if b then "true" else "false"

namespace Record

/-- A record as a JSON object, its message first among its fields. -/
def json (r : Record) : String :=
  jsonObject [
    ("level", jsonText r.level.name),
    ("fields", jsonObject
      (("message", jsonText r.message) :: r.fields.map fun (key, value) => (key, value.text))),
    ("target", jsonText r.target)]

/-- A record for a reader: level, message and fields. -/
def line (r : Record) : String :=
  r.level.name ++ " " ++ ", ".intercalate
    (r.message :: r.fields.map fun (key, value) => key ++ ": " ++ value.text)

end Record

end WorkerPool.Log
