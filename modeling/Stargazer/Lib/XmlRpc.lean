import Mathlib.Data.List.Basic
import Mathlib.Data.Rat.Defs

set_option relaxedAutoImplicit false
set_option autoImplicit false

/-!
# Values of XML-RPC

The values that a client sends, as a server reads them: a value is taken for one of a type, and where it
has another one there is an exception.  The numbers with a point are rational here.

## Main definitions

* `XmlRpc.Value` — a value.
* `XmlRpc.member` — a member of a structure that need not be there.
* `XmlRpc.Typed` — a member that has its type, if it is there.

## Main results

* `XmlRpc.exists_member_iff` — when a member is read.
-/

namespace XmlRpc

/-- A value; of the types that nobody asks for there is one. -/
inductive Value
  | int (z : ℤ)
  | boolean (b : Bool)
  | double (x : ℚ)
  | string (s : String)
  | array (l : List Value)
  | struct (m : List (String × Value))
  | other

namespace Value

/-- `value_int`. -/
def int? : Value → Option ℤ
  | int z => some z
  | _ => none

/-- `value_boolean`. -/
def boolean? : Value → Option Bool
  | boolean b => some b
  | _ => none

/-- `value_double`. -/
def double? : Value → Option ℚ
  | double x => some x
  | _ => none

/-- `value_string`. -/
def string? : Value → Option String
  | string s => some s
  | _ => none

/-- `value_array`. -/
def array? : Value → Option (List Value)
  | array l => some l
  | _ => none

/-- `value_struct`. -/
def struct? : Value → Option (List (String × Value))
  | struct m => some m
  | _ => none

@[simp] theorem int?_int (z : ℤ) : (int z).int? = some z := rfl

@[simp] theorem boolean?_boolean (b : Bool) : (boolean b).boolean? = some b := rfl

@[simp] theorem double?_double (x : ℚ) : (double x).double? = some x := rfl

@[simp] theorem string?_string (s : String) : (string s).string? = some s := rfl

end Value

section Members

variable {α : Type}

/-- A member that stays as it was if it is not there. -/
def member (m : List (String × Value)) (name : String) (conv : Value → Option α) (old : α) : Option α :=
  (m.lookup name).elim (some old) conv

/-- A member that has to be there: the value that `operator[]` makes of nothing has no type. -/
def field (m : List (String × Value)) (name : String) (conv : Value → Option α) : Option α :=
  (m.lookup name).bind conv

/-- A member has its type, if it is there. -/
def Typed (m : List (String × Value)) (name : String) (conv : Value → Option α) : Prop :=
  ∀ v, m.lookup name = some v → (conv v).isSome = true

variable {m : List (String × Value)} {name : String} {conv : Value → Option α} {old : α}

/-- **When a member is read.** -/
theorem exists_member_iff : (∃ a, member m name conv old = some a) ↔ Typed m name conv := by
  unfold member Typed
  cases m.lookup name with
  | none => exact iff_of_true ⟨old, rfl⟩ fun v hv => by cases hv
  | some v =>
    rw [← Option.isSome_iff_exists]
    refine ⟨fun h v' hv' => ?_, fun h => h v rfl⟩
    obtain rfl := Option.some.inj hv'
    exact h

/-- A member is not the one of another name. -/
theorem lookup_cons_of_ne {β : Type} {k k' : String} {b : β} {l : List (String × β)} (h : k ≠ k') :
    ((k', b) :: l).lookup k = l.lookup k := by
  rw [List.lookup_cons, beq_eq_false_iff_ne.mpr h]

end Members

end XmlRpc
