import Mozaic.Protocol

/-! JSON values as the client holds them after `JSON.parse`, the text `JSON.stringify`
writes for them, and what the server's derived `Deserialize` instances make of it. -/
namespace Mozaic

/-- A number, by the text it is written as. -/
inductive Number (F : Type) where
  /-- Plain digits. -/
  | digits (n : Nat)
  /-- A sign, a fraction or an exponent. -/
  | other (text : String) (x : F)
  /-- A literal that overflows, such as `1e999`. There is no text for it. -/
  | infinite
deriving DecidableEq, Repr

inductive Json (F : Type) where
  | null
  | bool (b : Bool)
  | number (n : Number F)
  | string (s : String)
  | array (values : List (Json F))
  /-- The keys are distinct. -/
  | object (fields : List (String × Json F))
deriving Repr

variable {F : Type}

namespace Json

def escape (c : Char) : String :=
  match c.toNat with
  | 8 => "\\b"
  | 9 => "\\t"
  | 10 => "\\n"
  | 12 => "\\f"
  | 13 => "\\r"
  | 34 => "\\\""
  | 92 => "\\\\"
  | code =>
    if code < 16 then "\\u000" ++ String.ofList (Nat.toDigits 16 code)
    else if code < 32 then "\\u00" ++ String.ofList (Nat.toDigits 16 code)
    else c.toString

def quote (s : String) : String := "\"" ++ String.join (s.toList.map escape) ++ "\""

/-- Items between two brackets, a line each. -/
def writeBlock (indent opening closing : String) : List String → String
  | [] => opening ++ closing
  | item :: items =>
    opening ++ "\n" ++ ",\n".intercalate ((item :: items).map (indent ++ "    " ++ ·)) ++
      "\n" ++ indent ++ closing

mutual
def write (indent : String) : Json F → String
  | .null => "null"
  | .bool b => toString b
  | .number (.digits n) => toString n
  | .number (.other text _) => text
  | .number .infinite => "null"
  | .string s => quote s
  | .array values => writeBlock indent "[" "]" (writeValues (indent ++ "    ") values)
  | .object fields => writeBlock indent "\x7b" "\x7d" (writeFields (indent ++ "    ") fields)

def writeValues (indent : String) : List (Json F) → List String
  | [] => []
  | value :: values => write indent value :: writeValues indent values

def writeFields (indent : String) : List (String × Json F) → List String
  | [] => []
  | (key, value) :: fields =>
    (quote key ++ ": " ++ write indent value) :: writeFields indent fields
end

/-- `JSON.stringify(value, undefined, 4)` -/
def stringify (value : Json F) : String := value.write ""

example : (Json.array (F := Int) [.null, .number (.digits 42)]).stringify =
    "[\n    null,\n    42\n]" := by decide

/-! What `serde_json` reads from that text. -/

def toU64 : Json F → Option Nat
  | .number (.digits n) => if n < 2 ^ 64 then some n else none
  | _ => none

def toF64 [NatCast F] : Json F → Option F
  | .number (.digits n) => some n
  | .number (.other _ x) => some x
  | _ => none

def toOptionU64 : Json F → Option (Option Nat)
  | .null | .number .infinite => some none
  | value => value.toU64.map some

def toStr : Json F → Option String
  | .string s => some s
  | _ => none

end Json

namespace Proto
variable [NatCast F]

/-- A derived instance takes an object, or the values of the fields in order. A missing
field is an error, unless it is optional. -/
def Planet.ofJson : Json F → Option (Planet F)
  | .object fields => do
    let shipCount ← (← fields.lookup "ship_count").toU64
    let x ← (← fields.lookup "x").toF64
    let y ← (← fields.lookup "y").toF64
    let owner ← ((fields.lookup "owner").getD .null).toOptionU64
    let name ← (← fields.lookup "name").toStr
    some { shipCount, x, y, owner, name }
  | .array [shipCount, x, y, owner, name] => do
    some
      { shipCount := ← shipCount.toU64
        x := ← x.toF64
        y := ← y.toF64
        owner := ← owner.toOptionU64
        name := ← name.toStr }
  | _ => none

def planetsOfJson : Json F → Option (List (Planet F))
  | .array values => values.mapM Planet.ofJson
  | _ => none

def Map.ofJson : Json F → Option (Map F)
  | .object fields => do
    let planets ← planetsOfJson (← fields.lookup "planets")
    some { planets }
  | .array [planets] => do
    some { planets := ← planetsOfJson planets }
  | _ => none

end Proto
end Mozaic
