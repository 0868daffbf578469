import TypeBridge.Proofs.TypeExpr.Name
import TypeBridge.TypeExpr.Printed

/-!
The parts of printed forms. Main statements: a reference prints its marks with one space at their
end, a tuple prints its elements in parentheses, and a path prints its generic arguments, if it has
any, between its name and a space with a closing bracket. So every part is printed in one piece of
the whole.
-/

namespace TypeBridge

/-! ### References -/

theorem TypeExpr.lifetimeText_of_ne_nil {name : Text} (h : name ≠ []) :
    TypeExpr.lifetimeText (some name) = '\'' :: name ++ [' '] := by
  cases name with
  | nil => exact absurd rfl h
  | cons c name =>
    rw [TypeExpr.lifetimeText]
    exact nofun

/-- What a reference prints before its referent. -/
def referenceText (isMutable : Bool) (lifetime : Option Text) : Text :=
  "& ".toList ++ TypeExpr.lifetimeText lifetime ++ TypeExpr.mutText isMutable

theorem exists_referenceText_eq (isMutable : Bool) (lifetime : Option Text) :
    ∃ marks, referenceText isMutable lifetime = '&' :: marks ++ [' '] := by
  cases isMutable with
  | true =>
    refine ⟨' ' :: TypeExpr.lifetimeText lifetime ++ "mut".toList, ?_⟩
    rw [← List.cons_append, List.append_assoc _ "mut".toList]
    rfl
  | false =>
    have hnone : referenceText false lifetime = "& ".toList ++ TypeExpr.lifetimeText lifetime :=
      List.append_nil _
    rw [hnone]
    rcases lifetime with _ | (_ | ⟨c, name⟩)
    · exact ⟨[], rfl⟩
    · exact ⟨[], rfl⟩
    · refine ⟨' ' :: '\'' :: (c :: name), ?_⟩
      rw [TypeExpr.lifetimeText_of_ne_nil (List.cons_ne_nil c name)]
      rfl

theorem mem_referenceText {isMutable : Bool} {lifetime : Option Text}
    (hlifetime : ∀ name ∈ lifetime, Text.isIdent name = true) {c : Char}
    (h : c ∈ referenceText isMutable lifetime) :
    Text.isIdentChar c = true ∨ c ∈ ['&', ' ', '\''] := by
  have hmut : c ∈ TypeExpr.mutText isMutable → Text.isIdentChar c = true ∨ c = ' ' := by
    have hword : ∀ c ∈ "mut ".toList, Text.isIdentChar c = true ∨ c = ' ' := by decide
    cases isMutable with
    | true => exact hword c
    | false => exact nofun
  have hname : c ∈ TypeExpr.lifetimeText lifetime →
      Text.isIdentChar c = true ∨ c = ' ' ∨ c = '\'' := by
    rcases lifetime with _ | (_ | ⟨d, name⟩)
    · exact nofun
    · exact nofun
    · intro hc
      have hident := Text.isIdentChar_of_mem_isIdent (hlifetime _ rfl)
      rw [TypeExpr.lifetimeText_of_ne_nil (List.cons_ne_nil d name), List.mem_append,
        List.mem_cons, List.mem_singleton] at hc
      rcases hc with (hc | hc) | hc
      · exact .inr (.inr hc)
      · exact .inl (hident c hc)
      · exact .inr (.inl hc)
  rcases List.mem_append.1 h with h | h
  · rcases List.mem_append.1 h with h | h
    · have hand : c = '&' ∨ c = ' ' := by simpa using h
      rcases hand with rfl | rfl <;> simp
    · rcases hname h with h | rfl | rfl
      · exact .inl h
      · simp
      · simp
  · rcases hmut h with h | rfl
    · exact .inl h
    · simp

theorem quiet_referenceText (isMutable : Bool) {lifetime : Option Text}
    (hlifetime : ∀ name ∈ lifetime, Text.isIdent name = true) :
    Quiet (referenceText isMutable lifetime) := by
  have hmarks : ∀ c ∈ [',', '<', '(', '[', '>', ')', ']'],
      Text.isIdentChar c = false ∧ c ∉ ['&', ' ', '\''] := by decide
  intro c hc hm
  obtain ⟨hident, hmark⟩ := hmarks c hm
  rcases mem_referenceText hlifetime hc with h | h
  · rw [hident] at h
    exact Bool.false_ne_true h
  · exact hmark h

theorem lastOr_referenceText_ne (isMutable : Bool) (lifetime : Option Text) :
    lastOr none (referenceText isMutable lifetime) ≠ some '-' := by
  obtain ⟨marks, hmarks⟩ := exists_referenceText_eq isMutable lifetime
  rw [hmarks, lastOr_concat]
  decide

theorem TypeExpr.exists_print_reference (referent : TypeExpr) (isMutable : Bool)
    (lifetime : Option Text) : ∃ marks,
      (TypeExpr.reference referent isMutable lifetime).print
        = '&' :: marks ++ ' ' :: referent.print := by
  obtain ⟨marks, hmarks⟩ := exists_referenceText_eq isMutable lifetime
  refine ⟨marks, ?_⟩
  show referenceText isMutable lifetime ++ referent.print = _
  rw [hmarks, List.append_assoc]
  rfl

/-! ### Tuples -/

namespace TypeExpr

theorem tupleText_of_ne_one {texts : List Text} (h : texts.length ≠ 1) :
    tupleText texts = '(' :: (", ".toList.intercalate texts ++ [')']) := by
  rcases texts with _ | ⟨s, _ | ⟨t, rest⟩⟩
  · rfl
  · exact absurd rfl h
  · rfl

theorem tupleText_singleton (s : Text) : tupleText [s] = '(' :: (s ++ [','] ++ [')']) := by
  rw [List.append_assoc]
  rfl

/-- What stands between the commas of a printed tuple. Behind the comma of a single element stands
nothing. -/
def tupleItems : List Text → List Text
  | [element] => [element, []]
  | elements => elements

theorem tupleItems_of_ne_one {texts : List Text} (h : texts.length ≠ 1) :
    tupleItems texts = texts := by
  rcases texts with _ | ⟨s, _ | ⟨t, rest⟩⟩
  · rfl
  · exact absurd rfl h
  · rfl

theorem getLast?_print_tuple (elements : List TypeExpr) :
    (tuple elements).print.getLast? = some ')' := by
  rw [print]
  by_cases h : (printAll elements).length = 1
  · obtain ⟨t, ht⟩ := List.length_eq_one_iff.1 h
    rw [ht, tupleText_singleton, ← List.cons_append, List.getLast?_concat]
  · rw [tupleText_of_ne_one h, ← List.cons_append, List.getLast?_concat]

end TypeExpr

/-! ### Paths -/

theorem TypeExpr.argsText_of_ne_nil {texts : List Text} (h : texts ≠ []) :
    TypeExpr.argsText texts = " < ".toList ++ ", ".toList.intercalate texts ++ " >".toList := by
  cases texts with
  | nil => exact absurd rfl h
  | cons t rest => rfl

theorem headText_some_append (self name tail : Text) :
    TypeExpr.headText name (some self) ++ tail
      = '<' :: (' ' :: (self ++ [' ']) ++ '>' :: (' ' :: ':' :: ':' :: ' ' :: (name ++ tail))) := by
  show ("< ".toList ++ self ++ " > :: ".toList ++ name) ++ tail = _
  simp

theorem print_path_of_ne_nil (n : PathName) {args : List TypeExpr} (h : args ≠ []) :
    (TypeExpr.path n.text args none).print
      = n.text ++ (" < ".toList ++ ", ".toList.intercalate (args.map TypeExpr.print)
          ++ " >".toList) := by
  show n.text ++ TypeExpr.argsText (TypeExpr.printAll args) = _
  rw [TypeExpr.printAll_eq_map, TypeExpr.argsText_of_ne_nil fun e => h (List.map_eq_nil_iff.1 e)]

/-- The first generic arguments of a path in print, and the others behind them. -/
theorem print_path_append (name : Text) {args : List TypeExpr} (h : args ≠ [])
    (more : List TypeExpr) : (TypeExpr.path name (args ++ more) none).print
      = name ++ (" < ".toList ++ (", ".toList.intercalate (args.map TypeExpr.print)
          ++ (if more.map TypeExpr.print = [] then []
            else ", ".toList ++ ", ".toList.intercalate (more.map TypeExpr.print))
          ++ " >".toList)) := by
  have hprints : args.map TypeExpr.print ≠ [] := fun e => h (List.map_eq_nil_iff.1 e)
  have hall : (args ++ more).map TypeExpr.print ≠ [] := fun e =>
    h (List.append_eq_nil_iff.1 (List.map_eq_nil_iff.1 e)).1
  show name ++ TypeExpr.argsText (TypeExpr.printAll (args ++ more)) = _
  rw [TypeExpr.printAll_eq_map, TypeExpr.argsText_of_ne_nil hall, List.map_append,
    Text.intercalate_append _ hprints]
  simp only [List.append_assoc]

theorem print_path_nil (n : PathName) : (TypeExpr.path n.text [] none).print = n.text :=
  List.append_nil n.text

namespace TypeExpr

theorem print_path_unapplied (fullName : Text) (selfType : Option Text) :
    (path fullName [] selfType).print = headText fullName selfType :=
  List.append_nil _

theorem headText_some_eq (fullName self : Text) :
    headText fullName (some self) = '<' :: (' ' :: self ++ " > ::".toList) ++ ' ' :: fullName := by
  show "< ".toList ++ self ++ " > :: ".toList ++ fullName = _
  simp

theorem getLast?_print_path (fullName : Text) {args : List TypeExpr} (h : args ≠ [])
    (selfType : Option Text) : (path fullName args selfType).print.getLast? = some '>' := by
  have hprints : args.map print ≠ [] := fun hnil => h (List.map_eq_nil_iff.1 hnil)
  have hclose : " >".toList ≠ [] := by decide
  rw [print, printAll_eq_map, argsText_of_ne_nil hprints, ← List.append_assoc,
    List.getLast?_append_of_ne_nil _ hclose]
  rfl

end TypeExpr

/-! ### Parts inside the whole -/

namespace TypeExpr

theorem isInfix_tupleText {texts : List Text} {t : Text} (h : t ∈ texts) :
    t <:+: tupleText texts := by
  by_cases hone : texts.length = 1
  · obtain ⟨s, rfl⟩ := List.length_eq_one_iff.1 hone
    obtain rfl := List.mem_singleton.1 h
    exact List.infix_append ['('] t ",)".toList
  · rw [tupleText_of_ne_one hone]
    exact (Text.isInfix_intercalate _ h).trans (List.infix_append ['('] _ [')'])

theorem isInfix_argsText {texts : List Text} {t : Text} (h : t ∈ texts) :
    t <:+: argsText texts := by
  rw [argsText_of_ne_nil (List.ne_nil_of_mem h)]
  exact (Text.isInfix_intercalate _ h).trans (List.infix_append _ _ _)

theorem print_isInfix_reference (referent : TypeExpr) (isMutable : Bool) (lifetime : Option Text) :
    referent.print <:+: (reference referent isMutable lifetime).print :=
  (List.suffix_append (referenceText isMutable lifetime) _).isInfix

theorem print_isInfix_tuple {elements : List TypeExpr} {e : TypeExpr} (h : e ∈ elements) :
    e.print <:+: (tuple elements).print := by
  show e.print <:+: tupleText (printAll elements)
  rw [printAll_eq_map]
  exact isInfix_tupleText (List.mem_map_of_mem h)

theorem print_isInfix_path (fullName : Text) (selfType : Option Text) {args : List TypeExpr}
    {e : TypeExpr} (h : e ∈ args) : e.print <:+: (path fullName args selfType).print := by
  show e.print <:+: headText fullName selfType ++ argsText (printAll args)
  rw [printAll_eq_map]
  exact (isInfix_argsText (List.mem_map_of_mem h)).trans (List.suffix_append _ _).isInfix

end TypeExpr

end TypeBridge
