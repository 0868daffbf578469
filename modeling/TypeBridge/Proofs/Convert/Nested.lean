import TypeBridge.Proofs.Nesting.Bracketed
import TypeBridge.Proofs.Wrapper.Canonical
import TypeBridge.Proofs.Wrapper.Compositional

/-!
Brackets in converted types. A converted type is built around the types of arguments, so it nests
properly if none of them ends with a dash, which would make an arrow of the bracket behind it. Main
statement: canonical text is converted into a type whose text nests properly, if the configured
names have the same two properties.
-/

namespace TypeBridge

/-! ### Text that can be enclosed -/

/-- Whether a text nests properly and can have a closing bracket behind it: a `>` behind a dash
would close nothing. -/
structure Enclosable (s : Text) : Prop where
  wellNested : WellNested s
  getLast?_ne : s.getLast? ≠ some '-'

instance (s : Text) : Decidable (Enclosable s) :=
  decidable_of_iff (WellNested s ∧ s.getLast? ≠ some '-')
    ⟨fun h => ⟨h.1, h.2⟩, fun h => ⟨h.wellNested, h.getLast?_ne⟩⟩

theorem Canonical.enclosable {s : Text} (h : Canonical s) : Enclosable s :=
  ⟨h.wellNested, h.spaced.getLast?_ne⟩

namespace Enclosable

variable {s t : Text}

theorem isArrowHead_eq_false (h : Enclosable s) (c : Char) :
    isArrowHead (lastOr none s) c = false := by
  have hlast : lastOr none s ≠ some '-' := lastOr_ne_of_getLast? h.getLast?_ne nofun
  rw [isArrowHead, beq_eq_false_iff_ne.2 hlast, Bool.and_false]

/-- Two such texts with a separator between them that ends with a space. -/
theorem separated (hs : Enclosable s) (ht : Enclosable t) (separator : Text)
    (hnested : ∀ before, openAfter? before [] (separator ++ [' ']) = some []) :
    Enclosable (s ++ (separator ++ [' ']) ++ t) := by
  refine ⟨?_, ?_⟩
  · rw [List.append_assoc]
    refine hs.wellNested.append ?_
    rw [openAfter?_append, hnested, Option.bind_some, lastOr_concat]
    exact ht.wellNested.openAfter?_eq (by decide) []
  · rw [List.getLast?_append, ← List.append_assoc, List.getLast?_concat]
    exact lastOr_ne_of_getLast? ht.getLast?_ne (by decide)

/-- Such a text in angle brackets behind a name. -/
theorem angled (h : Enclosable s) {name : Text} (hname : Quiet name)
    (hlast : lastOr none name ≠ some '-') : Enclosable (name ++ '<' :: (s ++ ['>'])) := by
  have hconcat : (name ++ '<' :: (s ++ ['>'])).getLast? = some '>' := by
    rw [← List.cons_append, ← List.append_assoc, List.getLast?_concat]
  refine ⟨(ScansAlike.quiet_append hname hlast _).wellNested_iff.2 ?_, hconcat ▸ by decide⟩
  have hclose : Bracket.angle.ClosesIn s := h.wellNested.closesIn .angle
  have harrow : isArrowHead (lastOr none s) Bracket.angle.closer = false :=
    h.isArrowHead_eq_false _
  exact (Bracket.wellNested_enclosed_iff hclose harrow []).2 ⟨h.wellNested, wellNested_nil⟩

theorem render_array {element : TsType} (h : Enclosable element.render) :
    Enclosable (TsType.array element).render :=
  have hname : Quiet "Array".toList := by decide
  h.angled hname (by decide)

theorem render_union {left right : TsType} (hl : Enclosable left.render)
    (hr : Enclosable right.render) : Enclosable (TsType.union left right).render :=
  hl.separated hr " |".toList fun _ => rfl

theorem render_record {key value : TsType} (hk : Enclosable key.render)
    (hv : Enclosable value.render) : Enclosable (TsType.record key value).render := by
  have hname : Quiet "Record".toList := by decide
  have hrecord := (hk.separated hv [','] fun _ => rfl).angled hname (by decide)
  simpa using hrecord

end Enclosable

/-! ### Converted types -/

variable {config : Config}

theorem Rows.mem_of_lookup {token name : Text} {rows : List (Text × Text)}
    (h : rows.lookup token = some name) : (token, name) ∈ rows := by
  obtain ⟨before, after, rfl, _⟩ := List.lookup_eq_some_iff.1 h
  exact List.mem_append_right before List.mem_cons_self

/-- The name of a scalar type is one of the table or of the rows. -/
theorem Scalar.of_lookup? {P : Text → Prop} {rows : Rows} (htable : ∀ row ∈ Scalar.table, P row.2)
    (hrows : ∀ row ∈ rows.entries, P row.2) {token name : Text}
    (h : Scalar.lookup? rows token = some name) : P name := by
  unfold Scalar.lookup? at h
  split at h
  · rename_i hbuiltin
    cases h
    exact htable _ (Rows.mem_of_lookup hbuiltin)
  split at h
  · rename_i hrow
    cases h
    exact hrows _ (Rows.mem_of_lookup hrow)
  split at h
  · cases h
    exact htable ("str".toList, "string".toList) (by decide)
  · cases h

theorem enclosable_of_lookup? (hrows : ∀ row ∈ config.rows.entries, Enclosable row.2)
    {token name : Text} (h : Scalar.lookup? config.rows token = some name) : Enclosable name :=
  Scalar.of_lookup? (by decide) hrows h

theorem enclosable_ofWrapped (herror : Enclosable config.errorType) (isReturn : Bool)
    {w : Wrapped TsType} (h : ∀ t ∈ w.args, Enclosable t.render) :
    Enclosable (TsType.ofWrapped config isReturn w).render := by
  cases w with
  | vec element => exact (List.forall_mem_singleton.1 h).render_array
  | option present =>
    have hnull : Enclosable TsType.null.render := by decide
    exact (List.forall_mem_singleton.1 h).render_union hnull
  | result success =>
    have hname : Enclosable (TsType.name config.errorType).render := herror
    have hsuccess := List.forall_mem_singleton.1 h
    cases isReturn with
    | true => exact hsuccess
    | false => exact hname.render_union hsuccess
  | hashMap key value =>
    obtain ⟨hkey, h⟩ := List.forall_mem_cons.1 h
    have hvalue := List.forall_mem_singleton.1 h
    exact hkey.render_record hvalue

theorem Wrapped.args_map {α β : Type} (f : α → β) (w : Wrapped α) :
    (w.map f).args = w.args.map f := by
  cases w <;> rfl

/-- Canonical text is converted into a type that can be enclosed. -/
theorem enclosable_convertText (herror : Enclosable config.errorType)
    (hrows : ∀ row ∈ config.rows.entries, Enclosable row.2) (isReturn : Bool) {text : Text}
    (ht : Canonical text) : Enclosable (convertText config isReturn text).value.render := by
  rw [value_convertText]
  cases hlookup : Scalar.lookup? config.rows text with
  | some name => exact enclosable_of_lookup? hrows hlookup
  | none =>
    cases hw : (recognize text).value with
    | none => exact ht.enclosable
    | some w =>
      refine enclosable_ofWrapped herror isReturn fun t hm => ?_
      rw [Wrapped.args_map] at hm
      obtain ⟨argument, ha, rfl⟩ := List.mem_map.1 hm
      have hlt := length_lt_of_mem_args_recognize hw ha
      exact enclosable_convertText herror hrows false (canonical_of_mem_args ht hw ha)
termination_by text.length

/-- The type of canonical text nests properly, for every choice of names that can be enclosed. -/
theorem wellNested_convert (config : Config) (isReturn : Bool)
    (herror : Enclosable config.errorType)
    (hrows : ∀ row ∈ config.rows.entries, Enclosable row.2) {text : Text} (ht : Canonical text) :
    WellNested (convert config isReturn (.text text)).value.render :=
  (enclosable_convertText herror hrows isReturn ht).wellNested

/-- A map behind an arrow, with text after its brackets and after those of an optional type in
it. -/
theorem wellNested_convert_behind_arrow :
    let text :=
      "fn (A) -> HashMap < Id , Option < Result < fn (A, B) -> C , E > , D > > + 'a".toList
    let config : Config := { rows := .ofList [("Id".toList, "Map<A, B>".toList)] }
    let rendered := "Record<Map<A, B>, Error | fn (A, B) -> C | null>".toList
    Canonical text ∧ Enclosable config.errorType ∧
      (∀ row ∈ config.rows.entries, Enclosable row.2) ∧
        (convert config true (.text text)).value.render = rendered ∧ WellNested rendered := by
  intro text config rendered
  have htext : Canonical text := by decide +kernel
  have herror : Enclosable config.errorType := by decide
  have hrows : ∀ row ∈ config.rows.entries, Enclosable row.2 := by decide
  have hrender : (convert config true (.text text)).value.render = rendered := by decide +kernel
  exact ⟨htext, herror, hrows, hrender,
    hrender ▸ wellNested_convert config true herror hrows htext⟩

end TypeBridge
