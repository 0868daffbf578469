import TypeBridge.Text.Quoted

/-!
The generic types that conversion takes apart. A wrapper renders its first one or two arguments;
`Wrapped` holds a wrapper together with exactly those. Main statement: a wrapper can be put around a
list of arguments just when there are as many as it renders, and it keeps the first of them in
order.
-/

namespace TypeBridge

/-- The wrappers, in the order in which they are tried. -/
inductive Wrapper where
  | vec
  | option
  | result
  | hashMap
  deriving DecidableEq, Repr

/-- A wrapper with the arguments it renders. -/
inductive Wrapped (α : Type) where
  | vec (element : α)
  | option (present : α)
  | result (success : α)
  | hashMap (key value : α)
  deriving DecidableEq

namespace Wrapper

/-- All wrappers, in the order in which they are tried. -/
def all : List Wrapper := [vec, option, result, hashMap]

/-- The name of the generic type. -/
def name : Wrapper → Text
  | vec => "Vec".toList
  | option => "Option".toList
  | result => "Result".toList
  | hashMap => "HashMap".toList

/-- The word for what a wrapper makes of its arguments. -/
def shapeName : Wrapper → Text
  | vec => "SEQUENCE".toList
  | option => "OPTIONAL".toList
  | result => "FALLIBLE".toList
  | hashMap => "MAP".toList

/-- The number of arguments that a wrapper renders. -/
def arity : Wrapper → Nat
  | hashMap => 2
  | _ => 1

/-- The wrapper of a given name. -/
def ofName? (s : Text) : Option Wrapper := all.find? fun wrapper => wrapper.name == s

/-- What is said of a name that no wrapper has. -/
def unknownName (s : Text) : Text := Text.quoted s ++ " is not a valid CompoundShape".toList

theorem mem_all (wrapper : Wrapper) : wrapper ∈ all := by cases wrapper <;> decide

@[simp] theorem ofName?_name : ∀ wrapper : Wrapper, ofName? wrapper.name = some wrapper
  | vec => rfl
  | option => rfl
  | result => rfl
  | hashMap => rfl

theorem name_of_ofName? {s : Text} {wrapper : Wrapper} (h : ofName? s = some wrapper) :
    wrapper.name = s := by
  simpa using List.find?_some h

/-- A wrapper around the first of a list of arguments, if there are enough. -/
def wrap? {α : Type} : Wrapper → List α → Option (Wrapped α)
  | vec, a :: _ => some (.vec a)
  | option, a :: _ => some (.option a)
  | result, a :: _ => some (.result a)
  | hashMap, a :: b :: _ => some (.hashMap a b)
  | _, _ => none

end Wrapper

namespace Wrapped

variable {α β : Type}

/-- The wrapper itself. -/
def wrapper : Wrapped α → Wrapper
  | vec _ => .vec
  | option _ => .option
  | result _ => .result
  | hashMap _ _ => .hashMap

/-- The first argument. -/
def inner : Wrapped α → α
  | vec a => a
  | option a => a
  | result a => a
  | hashMap a _ => a

/-- The arguments, in order. -/
def args : Wrapped α → List α
  | vec a => [a]
  | option a => [a]
  | result a => [a]
  | hashMap a b => [a, b]

/-- The same wrapper around other arguments. -/
def map (f : α → β) : Wrapped α → Wrapped β
  | vec a => .vec (f a)
  | option a => .option (f a)
  | result a => .result (f a)
  | hashMap a b => .hashMap (f a) (f b)

@[simp] theorem length_args (w : Wrapped α) : w.args.length = w.wrapper.arity := by
  cases w <;> rfl

end Wrapped

theorem Wrapper.wrap?_eq_some_iff {α : Type} {wrapper : Wrapper} {args : List α} {w : Wrapped α} :
    wrapper.wrap? args = some w ↔
      w.wrapper = wrapper ∧ wrapper.arity ≤ args.length ∧ w.args = args.take wrapper.arity := by
  constructor
  · intro h
    rcases args with _ | ⟨a, _ | ⟨b, rest⟩⟩ <;> cases wrapper <;> cases h <;>
      simp [Wrapped.wrapper, Wrapped.args, Wrapper.arity]
  · rintro ⟨rfl, hn, ha⟩
    rcases args with _ | ⟨a, _ | ⟨b, rest⟩⟩ <;> cases w <;>
      simp_all [Wrapper.wrap?, Wrapped.wrapper, Wrapped.args, Wrapper.arity]

theorem Wrapper.wrap?_eq_none_iff {α : Type} {wrapper : Wrapper} {args : List α} :
    wrapper.wrap? args = none ↔ args.length < wrapper.arity := by
  rcases args with _ | ⟨a, _ | ⟨b, rest⟩⟩ <;> cases wrapper <;>
    simp [Wrapper.wrap?, Wrapper.arity]

end TypeBridge
