import NetworkManager.Lib.Bytes
import NetworkManager.Lib.Keyed

/-!
# JSON values

A JSON value as a library for it gives it: members of an object in some order, each found by its
key. The accessors give nothing for a value of another kind.
-/

namespace NetworkManager.Lib

inductive Json
  | null
  | bool (b : Bool)
  | integer (n : ℤ)
  | real (text : Bytes)
  | string (s : Bytes)
  | array (items : List Json)
  | object (members : List (Bytes × Json))

namespace Json

def items : Json → List Json
  | array items => items
  | _ => []

def members : Json → List (Bytes × Json)
  | object members => members
  | _ => []

def arrayGet (json : Json) (index : ℕ) : Option Json := json.items[index]?

def objectGet (json : Json) (key : Bytes) : Option Json :=
  (lookup Prod.fst key json.members).map Prod.snd

def stringValue : Json → Option Bytes
  | string s => some s
  | _ => none

def isObject : Json → Bool
  | object _ => true
  | _ => false

variable {l : List Json} {ms : List (Bytes × Json)} {s key : Bytes}

@[simp] theorem items_array : (array l).items = l := rfl

@[simp] theorem members_object : (object ms).members = ms := rfl

@[simp] theorem stringValue_string : (string s).stringValue = some s := rfl

@[simp] theorem arrayGet_array {index : ℕ} : (array l).arrayGet index = l[index]? := rfl

@[simp] theorem objectGet_nil : (object []).objectGet key = none := rfl

end Json
end NetworkManager.Lib
