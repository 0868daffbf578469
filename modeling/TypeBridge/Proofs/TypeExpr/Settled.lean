import TypeBridge.Proofs.TypeExpr.Faithful
import TypeBridge.Proofs.TypeExpr.Nested

/-!
Printing settles well-nested text. A second reading may come to another expression, since a printed
path can look like a type that a word begins, but it is printed in the same way. Main statement:
what is read from well-nested text prints as well-nested text that is read again and printed as it
is.
-/

namespace TypeBridge

/-! ### Brackets around undivided texts -/

/-- Brackets hold texts that are each in one piece. -/
theorem Bracket.holds_of_undivided (bracket : Bracket) {texts : List Text} (hne : texts ≠ [])
    (h : ∀ t ∈ texts, Undivided t) : bracket.Holds texts := by
  have hnone : none ≠ some '-' := nofun
  have hsplits : SplitsFrom none 0 texts :=
    splitsFrom_of_forall hnone hne fun t ht => (h t ht).depthAfter?_eq
  have hw : WellNested ([','].intercalate texts) :=
    (openAfter?_intercalate_iff hnone hsplits).2 fun t ht => (h t ht).wellNested
  exact ⟨hw.closesIn bracket, hsplits⟩

theorem holds_tupleItems {texts : List Text} (hne : texts ≠ [])
    (h : ∀ t ∈ texts, Undivided t) : Bracket.round.Holds (TypeExpr.tupleItems texts) := by
  by_cases hone : texts.length = 1
  · obtain ⟨t, rfl⟩ := List.length_eq_one_iff.1 hone
    refine Bracket.round.holds_of_undivided (List.cons_ne_nil t _) (List.forall_mem_cons.2 ?_)
    exact ⟨h t List.mem_cons_self, List.forall_mem_singleton.2 undivided_nil⟩
  · rw [TypeExpr.tupleItems_of_ne_one hone]
    exact Bracket.round.holds_of_undivided hne h

/-! ### Expressions that are printed alike -/

/-- Whether the printed form of an expression is read, and printed again as it is. -/
def Settles (e : TypeExpr) : Prop := ∃ e', e'.print = e.print ∧ parseType e'.print = .ok e'

theorem Settles.exists_parseType {e : TypeExpr} (h : Settles e) :
    ∃ e', parseType e.print = .ok e' ∧ e'.print = e.print := by
  obtain ⟨e', hprint, hread⟩ := h
  exact ⟨e', hprint ▸ hread, hprint⟩

/-- What is kept as it is written is read again as it was. -/
theorem settles_of_read {s : Text} {e : TypeExpr} (h : parseType s = .ok e)
    (hprint : e.print = Text.strip s) : Settles e := by
  refine ⟨e, rfl, ?_⟩
  rw [hprint, parseType_congr (Text.strip_strip s)]
  exact h

/-- Expressions can be exchanged one by one for others that are printed in the same way. -/
theorem exists_map_print_eq {P : TypeExpr → Prop} : ∀ {es : List TypeExpr},
    (∀ e ∈ es, ∃ e', e'.print = e.print ∧ P e') →
      ∃ es' : List TypeExpr, es'.map TypeExpr.print = es.map TypeExpr.print ∧ ∀ e ∈ es', P e
  | [], _ => ⟨[], rfl, nofun⟩
  | e :: es, h => by
    obtain ⟨he, hes⟩ := List.forall_mem_cons.1 h
    obtain ⟨e', hprint, hp⟩ := he
    obtain ⟨es', hprints, hps⟩ := exists_map_print_eq hes
    refine ⟨e' :: es', ?_, List.forall_mem_cons.2 ⟨hp, hps⟩⟩
    rw [List.map_cons, List.map_cons, hprint, hprints]

theorem settles_of_layer {s : Text} {e e' : TypeExpr} (h : parseType s = .ok e)
    {layer : Layer} (hl : Layer.ofStripped? e.print = .ok layer) (hread : layer.read = .ok e')
    (hprint : e'.print = e.print) : Settles e := by
  refine ⟨e', hprint, ?_⟩
  rw [hprint]
  exact (parseType_print_iff h).2 ⟨layer, hl, hread⟩

/-! ### Tuples -/

theorem settles_tuple {s : Text} {es : List TypeExpr} (h : parseType s = .ok (.tuple es))
    (hu : ∀ e ∈ es, Undivided e.print) (hes : ∀ e ∈ es, Settles e) : Settles (.tuple es) := by
  obtain ⟨es', hprints, hread⟩ := exists_map_print_eq hes
  have hprint : (TypeExpr.tuple es').print = (TypeExpr.tuple es).print := by
    rw [TypeExpr.print, TypeExpr.print, TypeExpr.printAll_eq_map, TypeExpr.printAll_eq_map, hprints]
  by_cases hne : es' = []
  · subst hne
    have hl : Layer.ofStripped? (TypeExpr.tuple es).print = .ok (.tuple []) := by
      rw [← hprint]
      rfl
    exact settles_of_layer h hl (Layer.read_tuple_eq_ok.2 ⟨[], .nil, rfl⟩) hprint
  · have hholds : Bracket.round.Holds (TypeExpr.tupleItems (es'.map TypeExpr.print)) := by
      refine holds_tupleItems (fun hnil => hne (List.map_eq_nil_iff.1 hnil)) ?_
      rw [hprints]
      exact List.forall_mem_map.2 hu
    obtain ⟨layer, hl, hlayer⟩ :=
      (read_tupleText_iff hne fun e he => ⟨_, hread e he⟩).2 ⟨hholds, hread⟩
    refine settles_of_layer h ?_ hlayer hprint
    rw [TypeExpr.print, TypeExpr.printAll_eq_map, ← hprints, hl]

/-! ### Paths -/

/-- A printed form that a word makes a type of its own is kept as it is. -/
theorem exists_ofStripped?_of_beginsVerbatim {p : Text} (h : BeginsVerbatim p) :
    ∃ form, Layer.ofStripped? p = .ok (.verbatim form p) := by
  rcases h with rfl | h | h
  · exact ⟨.infer, rfl⟩
  · obtain ⟨rest, rfl⟩ := List.isPrefixOf_iff_prefix.1 h
    exact ⟨.dynTrait, rfl⟩
  · obtain ⟨rest, rfl⟩ := List.isPrefixOf_iff_prefix.1 h
    exact ⟨.implTrait, rfl⟩

/-- A generic argument is exchanged for one that is read from its printed form. -/
theorem exists_fromArgument {a : Argument} {e : TypeExpr}
    (ha : ∃ piece, Layer.argument? piece = some a) (h : a.ReadsWith (fun _ e => Settles e) e) :
    ∃ e', e'.print = e.print ∧ FromArgument (fun _ => True) e' := by
  obtain ⟨piece, hpiece⟩ := ha
  obtain ⟨hread, he⟩ := h
  cases a with
  | binding text => exact ⟨e, rfl, piece, _, hpiece, hread, nofun⟩
  | type text =>
    obtain ⟨rfl, _, hquote, hbinding⟩ := Layer.argument?_eq_type_iff.1 hpiece
    obtain ⟨e', hprint, hread'⟩ := he _ rfl
    have hm := mirrors_of_parseType hread
    rw [Text.strip_strip] at hm
    have hargument : Layer.argument? e.print = some (.type e.print) := by
      rw [Layer.argument?_eq_type_iff, hm.trimmed.strip_eq, hm.head?_eq]
      exact ⟨rfl, hm.ne_nil, hquote, hm.isBinding_eq hbinding⟩
    refine ⟨e', hprint, e.print, .type e.print, hargument, hprint ▸ hread', fun _ _ => ?_⟩
    exact iff_true_intro hread'

section

variable {s name : Text} {args : List Argument} {selfType : Option Text} {es : List TypeExpr}

theorem exists_ofPath?_print (hs : Text.Trimmed s)
    (h : Layer.ofPath? s = .ok (.path name args selfType))
    (hes : List.Forall₂ (Argument.ReadsWith fun _ e => Settles e) args es)
    (hu : ∀ e ∈ es, Undivided e.print) :
    ∃ args' es', Layer.ofPath? (name ++ TypeExpr.argsText (es.map TypeExpr.print))
        = .ok (.path name args' none) ∧ List.Forall₂ (fun a e => a.read = .ok e) args' es' ∧
      es'.map TypeExpr.print = es.map TypeExpr.print := by
  rcases Layer.ofPath?_name_or_arguments hs h with ⟨rfl, hname⟩ | ⟨n, rfl, hne, hargs⟩
  · cases hes
    refine ⟨[], [], ?_, .nil, rfl⟩
    rw [List.map_nil, TypeExpr.argsText, List.append_nil, hname]
  · have hes' : es.map TypeExpr.print ≠ [] := by
      intro hnil
      rw [List.map_eq_nil_iff.1 hnil] at hes
      cases hes
      exact hne rfl
    have halike := forall_mem_of_forall₂ hes hargs fun a e ha he => exists_fromArgument ha he
    obtain ⟨es', hprints, hfrom⟩ := exists_map_print_eq halike
    have hholds := Bracket.angle.holds_of_undivided hes' (List.forall_mem_map.2 hu)
    rw [← hprints] at hes' hholds ⊢
    have hne' : es' ≠ [] := fun e => hes' (List.map_eq_nil_iff.2 e)
    have hbinding : ∀ text, (fun _ => True) (TypeExpr.verbatim .binding text) := fun _ => trivial
    obtain ⟨args', hpath, hread⟩ :=
      (read_argsText_iff hbinding n hne' hfrom).2 ⟨hholds, fun _ _ => trivial⟩
    exact ⟨args', es', hpath, hread, rfl⟩

theorem settles_path (hpeel : Layer.peel? s = .ok (.path name args selfType))
    (hes : List.Forall₂ (Argument.ReadsWith fun _ e => Settles e) args es)
    (hu : ∀ e ∈ es, Undivided e.print) :
    Settles (.path name es selfType) := by
  have hs : parseType s = .ok (.path name es selfType) :=
    parseType_eq_ok_iff.2 ⟨_, hpeel, Layer.read_path_eq_ok.2 ⟨es, hes.imp fun a e he => he.1, rfl⟩⟩
  have hm := mirrors_of_parseType hs
  have hread : ∀ {args' es'}, Layer.ofStripped? (TypeExpr.path name es selfType).print
      = .ok (.path name args' selfType) → List.Forall₂ (fun a e => a.read = .ok e) args' es' →
        es'.map TypeExpr.print = es.map TypeExpr.print → Settles (.path name es selfType) := by
    intro args' es' hl hread hprints
    refine settles_of_layer hs hl (Layer.read_path_eq_ok.2 ⟨es', hread, rfl⟩) ?_
    rw [TypeExpr.print, TypeExpr.print, TypeExpr.printAll_eq_map, TypeExpr.printAll_eq_map, hprints]
  rcases Layer.ofStripped?_eq_path hpeel with ⟨rest, _, _, hl⟩ | ⟨rfl, hword, hl⟩
  · obtain ⟨t, ht, hpath, hqualified⟩ :=
      Layer.exists_ofPath?_of_ofQualified? hl (hes.imp fun a e he => he.read_eq)
    obtain ⟨args', es', hprint, hread', hprints⟩ := exists_ofPath?_print ht hpath hes hu
    refine hread ?_ hread' hprints
    rw [TypeExpr.print, TypeExpr.printAll_eq_map]
    exact (hqualified args').2 hprint
  · by_cases hbegins : BeginsVerbatim (TypeExpr.path name es none).print
    · -- The second reading takes the path for another type, whose text it keeps.
      obtain ⟨form, hform⟩ := exists_ofStripped?_of_beginsVerbatim hbegins
      exact settles_of_layer hs hform rfl rfl
    · have hfun := hword.isFunction_eq
      rw [Layer.isFunction_eq_false_iff, ← hm.takeWhile_eq, ← Layer.isFunction_eq_false_iff] at hfun
      obtain ⟨args', es', hprint, hread', hprints⟩ :=
        exists_ofPath?_print (Text.trimmed_strip s) hl hes hu
      refine hread ((Layer.ofStripped?_eq_path_iff hm.trimmed).2
        ⟨(unworded_iff hfun).2 hbegins, ?_⟩) hread' hprints
      rw [TypeExpr.print, TypeExpr.printAll_eq_map]
      exact hprint

end

/-! ### Readings -/

theorem settles_of_parseType {s : Text} {e : TypeExpr} (h : parseType s = .ok e) :
    WellNested s → Settles e := by
  refine parseType_induct (motive := fun s e => WellNested s → Settles e)
    ?reference ?group ?tuple ?path ?verbatim h
  case reference =>
    intro s t isMutable lifetime e hpeel ht ih hw
    obtain ⟨rest, hrest, hl⟩ := Layer.ofStripped?_eq_reference hpeel
    have hs : parseType s = .ok (.reference e isMutable lifetime) :=
      parseType_eq_ok_iff.2 ⟨_, hpeel, Layer.read_reference_eq_ok.2 ⟨e, ht, rfl⟩⟩
    have hreferent : WellNested t := by
      rw [← wellNested_strip_iff, hrest] at hw
      exact (Layer.scansAlike_referent hl).wellNested_iff.1 hw
    obtain ⟨e', hread, hprint⟩ := (ih hreferent).exists_parseType
    have hm := mirrors_of_parseType ht
    obtain ⟨q, hq, hlayer⟩ := exists_ofStripped?_reference hl hm
    rw [parseType_congr (hm.trimmed.strip_eq.trans hq.symm)] at hread
    refine settles_of_layer hs hlayer (Layer.read_reference_eq_ok.2 ⟨e', hread, rfl⟩) ?_
    rw [TypeExpr.print, TypeExpr.print, hprint]
  case group =>
    intro s whole inner hpeel hinner _
    have hs : parseType s = .ok (.verbatim .paren whole) :=
      parseType_eq_ok_iff.2 ⟨_, hpeel, Layer.read_group_eq_ok.2 ⟨hinner, rfl⟩⟩
    exact settles_of_read hs (Layer.ofStripped?_eq_group hpeel)
  case tuple =>
    intro s elements es hpeel hes hw
    have hread := hes.imp fun t e he => he.1
    have hs : parseType s = .ok (.tuple es) :=
      parseType_eq_ok_iff.2 ⟨_, hpeel, Layer.read_tuple_eq_ok.2 ⟨es, hread, rfl⟩⟩
    have hu := Layer.undivided_of_mem_tuple (wellNested_strip_iff.2 hw) hpeel
    refine settles_tuple hs (undivided_print_of_tuple hw hpeel hread) ?_
    exact forall_mem_of_forall₂ hes hu fun t e ht he => he.2 ht.wellNested
  case path =>
    intro s name args es selfType hpeel hes hw
    have hargs := Layer.inPiece_of_ofStripped? (wellNested_strip_iff.2 hw) hpeel
    have hread := hes.imp fun a e he => he.1
    refine settles_path hpeel ?_ (undivided_print_of_path hw hpeel hread)
    refine ((List.forall₂_and_left _ _).2 ⟨hargs, hes⟩).imp ?_
    rintro a e ⟨hpiece, hread, hsettles⟩
    refine ⟨hread, ?_⟩
    rintro t rfl
    exact hsettles t rfl hpiece.wellNested
  case verbatim =>
    intro s form text hpeel _
    exact settles_of_read (parseType_eq_ok_iff.2 ⟨_, hpeel, rfl⟩)
      (Layer.ofStripped?_eq_verbatim hpeel)

/-- What is read from well-nested text prints as well-nested text, which is read again and printed
as it is. -/
theorem exists_parse_print {s : Text} {e : TypeExpr} (hs : WellNested s) (h : parse s = .ok e) :
    WellNested e.print ∧ ∃ e', parse e.print = .ok e' ∧ e'.print = e.print := by
  rw [parse_eq_ok_iff] at h
  obtain ⟨e', hread, hprint⟩ := (settles_of_parseType h hs).exists_parseType
  exact ⟨(keepsNesting_of_parseType h).wellNested hs, e', parse_eq_ok_iff.2 hread, hprint⟩

/-- A path that prints like a trait object is read as one, and is printed as before. -/
theorem exists_parse_print_trait_object :
    let s := "(Box<dyn<'a, [u8;4]>>,)".toList
    let array := TypeExpr.verbatim .array "[u8;4]".toList
    let e := TypeExpr.tuple [.path "Box".toList [.path "dyn".toList [array] none] none]
    WellNested s ∧ parse s = .ok e ∧ e.print = "(Box < dyn < [u8;4] > >,)".toList ∧
      WellNested e.print ∧ ∃ e', parse e.print = .ok e' ∧ e'.print = e.print := by
  intro s array e
  have hs : WellNested s := by decide +kernel
  have harray : parseType "[u8;4]".toList = .ok array :=
    parseType_eq_ok_iff.2 ⟨.verbatim .array _, by decide +kernel, rfl⟩
  have hdyn : parseType "dyn<'a, [u8;4]>".toList = .ok (.path "dyn".toList [array] none) :=
    parseType_eq_ok_iff.2 ⟨.path _ [.type "[u8;4]".toList] none, by decide +kernel,
      Layer.read_path_eq_ok.2 ⟨_, .cons harray .nil, rfl⟩⟩
  have hbox : parseType "Box<dyn<'a, [u8;4]>>".toList
      = .ok (.path "Box".toList [.path "dyn".toList [array] none] none) :=
    parseType_eq_ok_iff.2 ⟨.path _ [.type "dyn<'a, [u8;4]>".toList] none, by decide +kernel,
      Layer.read_path_eq_ok.2 ⟨_, .cons hdyn .nil, rfl⟩⟩
  have he : parse s = .ok e :=
    parse_eq_ok_iff.2 (parseType_eq_ok_iff.2 ⟨.tuple ["Box<dyn<'a, [u8;4]>>".toList],
      by decide +kernel, Layer.read_tuple_eq_ok.2 ⟨_, .cons hbox .nil, rfl⟩⟩)
  exact ⟨hs, he, rfl, exists_parse_print hs he⟩

end TypeBridge
