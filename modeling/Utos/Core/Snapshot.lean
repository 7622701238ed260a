import Utos.Core.JsonText
import Utos.Core.Decimal
import Utos.Core.Uuid
import Utos.Core.DomainTypes

namespace Utos.Core.Json

open DomainTypes Exceptions JsonText

/-- value[key] -/
def item (j : Json) (key : String) : Except Exn Json :=
  match j with
  | object fields => match fields.lookup key with
    | some value => .ok value
    | none => .error (.other "KeyError" s!"'{key}'")
  | j => .error (.other "TypeError" s!"'{j.typeName}' object is not subscriptable")

/-- Decimal(value), of a text or an integer. -/
def decimal : Json → Except Exn Decimal
  | text s => match Decimal.parse s with
    | some d => .ok d
    | none => .error (.other "InvalidOperation" "[<class 'decimal.ConversionSyntax'>]")
  | int n => .ok ⟨n < 0, n.natAbs, 0⟩
  | j => .error (.other "TypeError" s!"conversion from {j.typeName} to Decimal is not supported")

/-- uuid.UUID(value) -/
def uuid : Json → Except Exn Uuid
  | text s => match Uuid.parse s with
    | some u => .ok u
    | none => .error (.other "ValueError" "badly formed hexadecimal UUID string")
  | j => .error (.other "AttributeError" s!"'{j.typeName}' object has no attribute 'replace'")

/-- json.loads(text), given what becomes of the text of a float. The error does not name its place. -/
def load (float : String → Json) (s : String) : Except Exn Json :=
  match loads float s.toList with
  | some j => .ok j
  | none => .error (.other "JSONDecodeError" "Expecting value")

/-- A value that is passed on as it is, read at the type of the attribute it goes
to. A snapshot that was written has no value of another type there. -/
def otherType (j : Json) : Exn := .other "TypeError" s!"unexpected {j.typeName}"

def asText : Json → Except Exn String
  | text s => .ok s
  | j => .error j.otherType

def asNat : Json → Except Exn Nat
  | int n => if 0 ≤ n then .ok n.toNat else .error (int n).otherType
  | j => .error j.otherType

def asBool : Json → Except Exn Bool
  | bool b => .ok b
  | j => .error j.otherType

def asOptionalText : Json → Except Exn (Option String)
  | null => .ok none
  | text s => .ok (some s)
  | j => .error j.otherType

def asList : Json → Except Exn (List Json)
  | list items => .ok items
  | j => .error j.otherType

def ofOptionalText : Option String → Json
  | none => null
  | some s => text s

/-- str(value) if value else None -/
def optionalText {α : Type} (truthy : α → Bool) (str : α → String) : Option α → Json
  | none => null
  | some a => if truthy a then text (str a) else null

/-- Decimal(value[key]) if value.get(key) else None -/
def optionalDecimal (j : Json) (key : String) : Except Exn (Option Decimal) := do
  if (← j.get key null).truthy then return some (← (← j.item key).decimal) else return none

/-- uuid.UUID(value[key]) if value.get(key) else None -/
def optionalUuid (j : Json) (key : String) : Except Exn (Option Uuid) := do
  if (← j.get key null).truthy then return some (← (← j.item key).uuid) else return none

theorem load_dumps {float : String → Json} {j : Json} (h : Exact j) :
    load float (String.ofList (dumps j)) = .ok j := by
  rw [load, String.toList_ofList, loads_dumps h]

theorem exact_ofOptionalText (s : Option String) : Exact (ofOptionalText s) := by
  cases s with
  | none => exact .null
  | some s => exact .text s

theorem item_of_field {j : Json} {key : String} {value : Json} (h : j.field key = some value) :
    j.item key = .ok value := by
  cases j with
  | object fields => simp only [item, show fields.lookup key = some value from h]
  | _ => cases h

theorem get_of_field {j : Json} {key : String} {value : Json} (default : Json) (h : j.field key = some value) :
    j.get key default = .ok value := by
  cases j with
  | object fields => rw [get_object, show fields.lookup key = some value from h, Option.getD_some]
  | _ => cases h

@[simp] theorem decimal_str (d : Decimal) : (text d.str).decimal = .ok d := by simp [decimal]

@[simp] theorem uuid_str (u : Uuid) : (text u.str).uuid = .ok u := by simp [uuid]

@[simp] theorem asText_text (s : String) : (text s).asText = .ok s := rfl

@[simp] theorem asNat_int (n : Nat) : (int n).asNat = .ok n := by simp [asNat]

@[simp] theorem asBool_bool (b : Bool) : (bool b).asBool = .ok b := rfl

@[simp] theorem asList_list (items : List Json) : (list items).asList = .ok items := rfl

@[simp] theorem asOptionalText_ofOptionalText (s : Option String) : (ofOptionalText s).asOptionalText = .ok s := by
  cases s <;> rfl

theorem optionalText_eq {α : Type} (truthy : α → Bool) (str : α → String) (o : Option α) :
    optionalText truthy str o = ofOptionalText ((o.filter truthy).map str) := by
  cases o with
  | none => rfl
  | some a => cases h : truthy a <;> simp [optionalText, Option.filter, h, ofOptionalText]

theorem exact_optionalText {α : Type} (truthy : α → Bool) (str : α → String) (o : Option α) :
    Exact (optionalText truthy str o) := by
  rw [optionalText_eq]
  exact exact_ofOptionalText _

@[simp] theorem asOptionalText_optionalText {α : Type} (truthy : α → Bool) (str : α → String) (o : Option α) :
    (optionalText truthy str o).asOptionalText = .ok ((o.filter truthy).map str) := by
  rw [optionalText_eq, asOptionalText_ofOptionalText]

theorem optionalDecimal_of_field {j : Json} {key : String} {o : Option Decimal}
    (h : j.field key = some (optionalText Decimal.truthy Decimal.str o)) :
    j.optionalDecimal key = .ok (o.filter Decimal.truthy) := by
  rw [optionalText_eq] at h
  cases hf : o.filter Decimal.truthy with
  | none =>
      rw [hf] at h
      simp [optionalDecimal, get_of_field _ h, ofOptionalText, truthy, bind, Except.bind, pure, Except.pure]
  | some d =>
      rw [hf] at h
      simp [optionalDecimal, get_of_field _ h, item_of_field h, ofOptionalText, truthy, Decimal.str_ne_empty, bind,
        Except.bind, pure, Except.pure]

theorem optionalUuid_of_field {j : Json} {key : String} {o : Option Uuid}
    (h : j.field key = some (optionalText (fun _ => true) Uuid.str o)) : j.optionalUuid key = .ok o := by
  cases o with
  | none => simp [optionalUuid, get_of_field _ h, optionalText, truthy, bind, Except.bind, pure, Except.pure]
  | some u =>
      simp [optionalUuid, get_of_field _ h, item_of_field h, optionalText, truthy, Uuid.str_ne_empty, bind,
        Except.bind, pure, Except.pure]

end Utos.Core.Json
