import Mathlib.Data.Rat.Defs
import Utos.Core.Exceptions

namespace Utos.Core

open Exceptions

/-- What response.json() returns. A float carries its value, if it is a number,
and the text that Python prints for it; an object has every key once. -/
inductive Json
  | null
  | bool (b : Bool)
  | int (n : Int)
  | float (value : Option ℚ) (text : String)
  | text (s : String)
  | list (items : List Json)
  | object (fields : List (String × Json))

namespace Json

def typeName : Json → String
  | null => "NoneType"
  | bool _ => "bool"
  | int _ => "int"
  | float .. => "float"
  | text _ => "str"
  | list _ => "list"
  | object _ => "dict"

/-- bool(value) -/
def truthy : Json → Bool
  | null => false
  | bool b => b
  | int n => n ≠ 0
  | float value _ => value ≠ some 0
  | text s => s ≠ ""
  | list items => !items.isEmpty
  | object fields => !fields.isEmpty

/-- str(value), given what is printed for a list or an object. -/
def str (display : Json → String) : Json → String
  | null => "None"
  | bool b => if b then "True" else "False"
  | int n => toString n
  | float _ printed => printed
  | text s => s
  | j => display j

/-- value.get(key, default) -/
def get (j : Json) (key : String) (default : Json) : Except Exn Json :=
  match j with
  | object fields => .ok ((fields.lookup key).getD default)
  | j => .error (.other "AttributeError" s!"'{j.typeName}' object has no attribute 'get'")

/-- value[0] -/
def first : Json → Except Exn Json
  | list (item :: _) => .ok item
  | list [] => .error (.other "IndexError" "list index out of range")
  | text s => match s.toList with
    | c :: _ => .ok (text (String.ofList [c]))
    | [] => .error (.other "IndexError" "string index out of range")
  | object _ => .error (.other "KeyError" "0")
  | j => .error (.other "TypeError" s!"'{j.typeName}' object is not subscriptable")

/-- value == n -/
def isInt (n : Int) : Json → Bool
  | int m => m = n
  | bool b => (if b then 1 else 0) = n
  | float value _ => value = some n
  | _ => false

/-- value == s -/
def isText (s : String) : Json → Bool
  | text t => t = s
  | _ => false

def isObject : Json → Bool
  | object _ => true
  | _ => false

/-- The field of an object. -/
def field (key : String) : Json → Option Json
  | object fields => fields.lookup key
  | _ => none

@[simp] theorem get_object (fields : List (String × Json)) (key : String) (default : Json) :
    (object fields).get key default = .ok ((fields.lookup key).getD default) := rfl

@[simp] theorem isObject_object (fields : List (String × Json)) : (object fields).isObject = true := rfl

end Json

end Utos.Core
