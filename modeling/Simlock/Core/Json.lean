import Mathlib.Data.Rat.Defs

/-! Parsed JSON from outside.

    A value that `JSON.parse` gave is of any shape; the readers take one field of it and answer
    nothing when it is absent or the value is no object. -/

namespace Simlock.Core

inductive Json where
  | null
  | bool (b : Bool)
  | number (n : ℚ)
  | string (s : String)
  | array (items : List Json)
  | object (fields : List (String × Json))

/-- The own entries of an object, in `Object.entries` order. -/
abbrev Payload := List (String × Json)

def Payload.field (payload : Payload) (name : String) : Option Json :=
  (payload.find? (fun e => e.1 = name)).map Prod.snd

def payloadOf : Option Json → Payload
  | some (.object fields) => fields
  | _ => []

end Simlock.Core
