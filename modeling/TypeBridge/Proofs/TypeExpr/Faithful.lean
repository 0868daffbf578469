import TypeBridge.Proofs.TypeExpr.Reread

/-!
When printing loses nothing. Main statement: what was read is read again from its printed form just
when the brackets of every printed list hold its elements, and no path prints like a type that a
word begins.
-/

namespace TypeBridge

/-- Whether a text is taken for an inferred type, or for a type that `dyn` or `impl` begins. -/
def BeginsVerbatim (s : Text) : Prop :=
  s = ['_'] ∨ "dyn ".toList.isPrefixOf s = true ∨ "impl ".toList.isPrefixOf s = true

instance (s : Text) : Decidable (BeginsVerbatim s) := inferInstanceAs (Decidable (_ ∨ _))

/-- Whether the printed form of an expression says what the expression is. -/
inductive Faithful : TypeExpr → Prop
  | verbatim (form : Form) (text : Text) : Faithful (.verbatim form text)
  | reference {referent : TypeExpr} (isMutable : Bool) (lifetime : Option Text) :
    Faithful referent → Faithful (.reference referent isMutable lifetime)
  | tuple {elements : List TypeExpr} :
    (elements ≠ [] →
      Bracket.round.Holds (TypeExpr.tupleItems (elements.map TypeExpr.print))) →
    (∀ e ∈ elements, Faithful e) → Faithful (.tuple elements)
  | path {fullName : Text} {args : List TypeExpr} {selfType : Option Text} :
    (selfType = none → ¬ BeginsVerbatim (TypeExpr.path fullName args selfType).print) →
    (args ≠ [] → Bracket.angle.Holds (args.map TypeExpr.print)) →
    (∀ e ∈ args, Faithful e) → Faithful (.path fullName args selfType)

theorem faithful_reference_iff {e : TypeExpr} {isMutable : Bool} {lifetime : Option Text} :
    Faithful (.reference e isMutable lifetime) ↔ Faithful e := by
  constructor
  · intro h
    cases h
    assumption
  · exact .reference isMutable lifetime

theorem faithful_tuple_iff {es : List TypeExpr} :
    Faithful (.tuple es) ↔
      (es ≠ [] → Bracket.round.Holds (TypeExpr.tupleItems (es.map TypeExpr.print))) ∧
        ∀ e ∈ es, Faithful e := by
  constructor
  · intro h
    cases h with
    | tuple hholds hes => exact ⟨hholds, hes⟩
  · rintro ⟨hholds, hes⟩
    exact .tuple hholds hes

theorem faithful_path_iff {name : Text} {es : List TypeExpr} {selfType : Option Text} :
    Faithful (.path name es selfType) ↔
      (selfType = none → ¬ BeginsVerbatim (TypeExpr.path name es selfType).print) ∧
        (es ≠ [] → Bracket.angle.Holds (es.map TypeExpr.print)) ∧ ∀ e ∈ es, Faithful e := by
  constructor
  · intro h
    cases h with
    | path hword hholds hes => exact ⟨hword, hholds, hes⟩
  · rintro ⟨hword, hholds, hes⟩
    exact .path hword hholds hes

/-! ### Reading again -/

theorem parseType_print_iff {s : Text} {e e' : TypeExpr} (h : parseType s = .ok e) :
    parseType e.print = .ok e' ↔
      ∃ layer, Layer.ofStripped? e.print = .ok layer ∧ layer.read = .ok e' := by
  rw [parseType_eq_ok_iff, Layer.peel?, (mirrors_of_parseType h).trimmed.strip_eq]

theorem unworded_iff {s : Text} (h : Layer.isFunction s = false) :
    Layer.Unworded s ↔ ¬ BeginsVerbatim s := by
  rw [BeginsVerbatim, not_or, not_or, Bool.not_eq_true, Bool.not_eq_true]
  constructor
  · rintro ⟨hinfer, _, hdyn, himpl⟩
    exact ⟨hinfer, hdyn, himpl⟩
  · rintro ⟨hinfer, hdyn, himpl⟩
    exact ⟨hinfer, h, hdyn, himpl⟩

theorem parseType_print_reference_iff {s t : Text} {e : TypeExpr} {isMutable : Bool}
    {lifetime : Option Text} (hpeel : Layer.peel? s = .ok (.reference t isMutable lifetime))
    (ht : parseType t = .ok e) :
    parseType (TypeExpr.reference e isMutable lifetime).print
        = .ok (.reference e isMutable lifetime) ↔ parseType e.print = .ok e := by
  have hs : parseType s = .ok (.reference e isMutable lifetime) :=
    parseType_eq_ok_iff.2 ⟨_, hpeel, Layer.read_reference_eq_ok.2 ⟨e, ht, rfl⟩⟩
  obtain ⟨rest, _, hrest⟩ := Layer.ofStripped?_eq_reference hpeel
  have hm := mirrors_of_parseType ht
  obtain ⟨q, hq, hread⟩ := exists_ofStripped?_reference hrest hm
  have hsame : parseType q = parseType e.print :=
    parseType_congr (hq.trans hm.trimmed.strip_eq.symm)
  rw [parseType_print_iff hs, ← hsame]
  constructor
  · rintro ⟨layer, hl, he⟩
    have hlayer := hread.symm.trans hl
    cases hlayer
    obtain ⟨inner, hinner, heq⟩ := Layer.read_reference_eq_ok.1 he
    cases heq
    exact hinner
  · intro he
    exact ⟨_, hread, Layer.read_reference_eq_ok.2 ⟨e, he, rfl⟩⟩

theorem parseType_print_tuple_iff {s : Text} {elements : List Text} {es : List TypeExpr}
    (hpeel : Layer.peel? s = .ok (.tuple elements))
    (hes : List.Forall₂ (fun t e => parseType t = .ok e) elements es) :
    parseType (TypeExpr.tuple es).print = .ok (.tuple es) ↔
      (es ≠ [] → Bracket.round.Holds (TypeExpr.tupleItems (es.map TypeExpr.print))) ∧
        ∀ e ∈ es, parseType e.print = .ok e := by
  have hs : parseType s = .ok (.tuple es) :=
    parseType_eq_ok_iff.2 ⟨_, hpeel, Layer.read_tuple_eq_ok.2 ⟨es, hes, rfl⟩⟩
  rw [parseType_print_iff hs, TypeExpr.print, TypeExpr.printAll_eq_map]
  by_cases hne : es = []
  · subst hne
    constructor
    · intro _
      exact ⟨fun h => absurd rfl h, List.forall_mem_nil _⟩
    · intro _
      exact ⟨.tuple [], rfl, Layer.read_tuple_eq_ok.2 ⟨[], .nil, rfl⟩⟩
  · have hread : ∀ e ∈ es, ∃ t, parseType t = .ok e :=
      forall_right_of_forall₂ hes fun t e he => ⟨t, he⟩
    rw [read_tupleText_iff hne hread]
    exact and_congr_left' ⟨fun h _ => h, fun h => h hne⟩

theorem parseType_print_path_iff {good : TypeExpr → Prop}
    (hbinding : ∀ text, good (.verbatim .binding text)) {s name : Text} {args : List Argument}
    {selfType : Option Text} {es : List TypeExpr}
    (hpeel : Layer.peel? s = .ok (.path name args selfType))
    (hes : List.Forall₂ (Argument.ReadsWith fun _ e => parseType e.print = .ok e ↔ good e)
      args es) :
    parseType (TypeExpr.path name es selfType).print = .ok (.path name es selfType) ↔
      (selfType = none → ¬ BeginsVerbatim (TypeExpr.path name es selfType).print) ∧
        (es ≠ [] → Bracket.angle.Holds (es.map TypeExpr.print)) ∧ ∀ e ∈ es, good e := by
  have hs : parseType s = .ok (.path name es selfType) :=
    parseType_eq_ok_iff.2 ⟨_, hpeel, Layer.read_path_eq_ok.2 ⟨es, hes.imp fun a e h => h.1, rfl⟩⟩
  have hm := mirrors_of_parseType hs
  rw [parseType_print_iff hs]
  simp only [Layer.read_eq_path_iff]
  rw [TypeExpr.print, TypeExpr.printAll_eq_map] at hm ⊢
  rcases Layer.ofStripped?_eq_path hpeel with ⟨rest, _, hsome, hl⟩ | ⟨rfl, hu, hl⟩
  · rw [← read_qualified_iff hbinding hl hes]
    constructor
    · rintro ⟨layer, hlayer, args', rfl, hread⟩
      exact ⟨fun hnone => absurd hnone hsome, args', hlayer, hread⟩
    · rintro ⟨_, args', hlayer, hread⟩
      exact ⟨_, hlayer, args', rfl, hread⟩
  · have hword : Layer.isFunction (name ++ TypeExpr.argsText (es.map TypeExpr.print)) = false := by
      have hfun := hu.isFunction_eq
      rw [Layer.isFunction_eq_false_iff, ← hm.takeWhile_eq] at hfun
      exact Layer.isFunction_eq_false_iff.2 hfun
    rw [← read_path_iff hbinding (Text.trimmed_strip s) hl hes]
    constructor
    · rintro ⟨layer, hlayer, args', rfl, hread⟩
      obtain ⟨hbegins, hpath⟩ := (Layer.ofStripped?_eq_path_iff hm.trimmed).1 hlayer
      exact ⟨fun _ => (unworded_iff hword).1 hbegins, args', hpath, hread⟩
    · rintro ⟨hbegins, args', hpath, hread⟩
      refine ⟨_, ?_, args', rfl, hread⟩
      exact (Layer.ofStripped?_eq_path_iff hm.trimmed).2
        ⟨(unworded_iff hword).2 (hbegins rfl), hpath⟩

/-- What was read is read again from its printed form just when that says what it is. -/
theorem parse_print_iff {s : Text} {e : TypeExpr} (h : parse s = .ok e) :
    parse e.print = .ok e ↔ Faithful e := by
  rw [parse_eq_ok_iff] at h ⊢
  have hkept : ∀ {s : Text} {form : Form} {layer : Layer}, Layer.peel? s = .ok layer →
      layer.read = .ok (.verbatim form (Text.strip s)) →
        (parseType (Text.strip s) = .ok (.verbatim form (Text.strip s)) ↔
          Faithful (.verbatim form (Text.strip s))) := by
    intro s form layer hpeel hread
    rw [parseType_congr (Text.strip_strip s)]
    exact ⟨fun _ => .verbatim form _, fun _ => parseType_eq_ok_iff.2 ⟨layer, hpeel, hread⟩⟩
  refine parseType_induct (motive := fun _ e => parseType e.print = .ok e ↔ Faithful e)
    ?reference ?group ?tuple ?path ?verbatim h
  case reference =>
    intro s t isMutable lifetime e hpeel ht ih
    rw [parseType_print_reference_iff hpeel ht, ih, faithful_reference_iff]
  case group =>
    intro s whole inner hpeel hinner
    have hwhole := Layer.ofStripped?_eq_group hpeel
    rw [hwhole] at hpeel ⊢
    exact hkept hpeel (Layer.read_group_eq_ok.2 ⟨hinner, rfl⟩)
  case tuple =>
    intro s elements es hpeel hes
    rw [parseType_print_tuple_iff hpeel (hes.imp fun t e he => he.1), faithful_tuple_iff]
    have hall : ∀ e ∈ es, (parseType e.print = .ok e ↔ Faithful e) :=
      forall_mem_of_forall₂ hes (P := fun _ => True) (fun _ _ => trivial) fun t e _ he => he.2
    exact and_congr_right' (forall₂_congr hall)
  case path =>
    intro s name args es selfType hpeel hes
    rw [parseType_print_path_iff (Faithful.verbatim .binding) hpeel hes, faithful_path_iff]
  case verbatim =>
    intro s form text hpeel
    have htext := Layer.ofStripped?_eq_verbatim hpeel
    rw [htext] at hpeel ⊢
    exact hkept hpeel (Layer.read_verbatim_eq_ok.2 rfl)

/-- A trait object over two lines is taken for a path, but prints like a trait object. -/
theorem parse_print_ne_trait_object :
    let e := TypeExpr.path "dyn ::a::B<T> + Send".toList [] none
    parse "dyn\n::a::B<T> + Send".toList = .ok e ∧ parse e.print ≠ .ok e := by
  intro e
  have hpeel : Layer.peel? "dyn\n::a::B<T> + Send".toList
      = .ok (.path "dyn ::a::B<T> + Send".toList [] none) := by decide +kernel
  have he : parse "dyn\n::a::B<T> + Send".toList = .ok e :=
    parse_eq_ok_iff.2 (parseType_eq_ok_iff.2 ⟨_, hpeel, rfl⟩)
  have hbegins : BeginsVerbatim e.print := .inr (.inl rfl)
  refine ⟨he, fun hprint => ?_⟩
  obtain ⟨hword, _⟩ := faithful_path_iff.1 ((parse_print_iff he).1 hprint)
  exact hword rfl hbegins

end TypeBridge
