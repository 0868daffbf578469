import Mathlib.Data.List.Forall2
import TypeBridge.Proofs.Text.Strip
import TypeBridge.TypeExpr.Parse

/-!
Successful readings. Main statements: a text is read just when a layer can be peeled off and each of
the texts inside it is read in its turn; and to prove something of every successful reading, prove
it of each layer from the readings of its parts.
-/

namespace TypeBridge

theorem mapM_eq_ok_iff {ε α β : Type} {f : α → Except ε β} : ∀ {as : List α} {bs : List β},
    as.mapM f = .ok bs ↔ List.Forall₂ (fun a b => f a = .ok b) as bs
  | [], bs => by
    rw [List.mapM_nil, List.forall₂_nil_left_iff]
    exact ⟨fun h => (Except.ok.inj h).symm, fun h => h ▸ rfl⟩
  | a :: as, bs => by
    rw [List.mapM_cons, List.forall₂_cons_left_iff]
    constructor
    · intro h
      cases ha : f a with
      | error e =>
        rw [ha] at h
        cases h
      | ok b =>
        cases has : as.mapM f with
        | error e =>
          rw [ha, has] at h
          cases h
        | ok rest =>
          rw [ha, has] at h
          cases h
          exact ⟨b, rest, rfl, mapM_eq_ok_iff.1 has, rfl⟩
    · rintro ⟨b, rest, hb, hrest, rfl⟩
      rw [hb, mapM_eq_ok_iff.2 hrest]
      rfl

theorem forall_mem_of_forall₂ {α β : Type} {R : α → β → Prop} {P : α → Prop} {Q : β → Prop} :
    ∀ {as : List α} {bs : List β}, List.Forall₂ R as bs → (∀ a ∈ as, P a) →
      (∀ a b, P a → R a b → Q b) → ∀ b ∈ bs, Q b
  | _, _, .nil, _, _ => nofun
  | _, _, .cons hr hrest, hp, hq => by
    obtain ⟨ha, has⟩ := List.forall_mem_cons.1 hp
    exact List.forall_mem_cons.2 ⟨hq _ _ ha hr, forall_mem_of_forall₂ hrest has hq⟩

theorem forall_right_of_forall₂ {α β : Type} {R : α → β → Prop} {Q : β → Prop} {as : List α}
    {bs : List β} (h : List.Forall₂ R as bs) (hq : ∀ a b, R a b → Q b) : ∀ b ∈ bs, Q b :=
  forall_mem_of_forall₂ h (P := fun _ => True) (fun _ _ => trivial) fun a b _ => hq a b

/-! ### Layers -/

namespace Layer

variable {e : TypeExpr}

theorem read_reference_eq_ok {referent : Text} {isMutable : Bool} {lifetime : Option Text} :
    (reference referent isMutable lifetime).read = .ok e ↔
      ∃ inner, parseType referent = .ok inner ∧ e = .reference inner isMutable lifetime := by
  rw [read]
  cases parseType referent with
  | error err => simp [bind, Except.bind]
  | ok inner => simp [bind, Except.bind, pure, Except.pure, eq_comm]

theorem read_group_eq_ok {whole inner : Text} :
    (group whole inner).read = .ok e ↔
      (∃ inside, parseType inner = .ok inside) ∧ e = .verbatim .paren whole := by
  rw [read]
  cases parseType inner with
  | error err => simp [bind, Except.bind]
  | ok inside => simp [bind, Except.bind, pure, Except.pure, eq_comm]

theorem read_tuple_eq_ok {elements : List Text} :
    (tuple elements).read = .ok e ↔
      ∃ es, List.Forall₂ (fun s e => parseType s = .ok e) elements es ∧ e = .tuple es := by
  simp only [← mapM_eq_ok_iff]
  rw [read]
  cases elements.mapM parseType with
  | error err => simp [bind, Except.bind]
  | ok es => simp [bind, Except.bind, pure, Except.pure, eq_comm]

theorem read_path_eq_ok {name : Text} {args : List Argument} {selfType : Option Text} :
    (path name args selfType).read = .ok e ↔
      ∃ es, List.Forall₂ (fun a e => a.read = .ok e) args es ∧ e = .path name es selfType := by
  simp only [← mapM_eq_ok_iff]
  rw [read]
  cases args.mapM Argument.read with
  | error err => simp [bind, Except.bind]
  | ok es => simp [bind, Except.bind, pure, Except.pure, eq_comm]

theorem read_verbatim_eq_ok {form : Form} {text : Text} :
    (verbatim form text).read = .ok e ↔ e = .verbatim form text :=
  ⟨fun h => (Except.ok.inj h).symm, fun h => h ▸ rfl⟩

/-- The only layer that is read as a path is that of the path. -/
theorem read_eq_path_iff {layer : Layer} {name : Text} {es : List TypeExpr}
    {selfType : Option Text} :
    layer.read = .ok (.path name es selfType) ↔ ∃ args, layer = .path name args selfType ∧
      List.Forall₂ (fun a e => a.read = .ok e) args es := by
  constructor
  · intro h
    cases layer with
    | reference t isMutable lifetime =>
      obtain ⟨_, _, he⟩ := read_reference_eq_ok.1 h
      cases he
    | group whole inner =>
      obtain ⟨_, he⟩ := read_group_eq_ok.1 h
      cases he
    | tuple elements =>
      obtain ⟨_, _, he⟩ := read_tuple_eq_ok.1 h
      cases he
    | path name' args selfType' =>
      obtain ⟨es', hes, he⟩ := read_path_eq_ok.1 h
      cases he
      exact ⟨args, rfl, hes⟩
    | verbatim form text => cases read_verbatim_eq_ok.1 h
  · rintro ⟨args, rfl, hes⟩
    exact read_path_eq_ok.2 ⟨es, hes, rfl⟩

end Layer

theorem parseType_eq_ok_iff {s : Text} {e : TypeExpr} :
    parseType s = .ok e ↔ ∃ layer, Layer.peel? s = .ok layer ∧ layer.read = .ok e := by
  rw [parseType_eq]
  cases Layer.peel? s with
  | error err => simp [Except.bind]
  | ok layer => simp [Except.bind]

/-- Blanks around a text do not change what is read. -/
theorem parseType_congr {s t : Text} (h : Text.strip s = Text.strip t) :
    parseType s = parseType t := by
  rw [parseType_eq, parseType_eq, Layer.peel?, Layer.peel?, h]

theorem parse_eq_ok_iff {s : Text} {e : TypeExpr} : parse s = .ok e ↔ parseType s = .ok e := by
  unfold parse
  split
  · rename_i hs
    have hp : parseType s = .error ⟨[], .expectedType⟩ := by
      rw [parseType_eq, Layer.peel?, List.isEmpty_iff.1 hs]
      rfl
    rw [hp]
    exact ⟨nofun, nofun⟩
  · exact Iff.rfl

/-- How a generic argument is read, and what holds of it if it is a type. -/
structure Argument.ReadsWith (motive : Text → TypeExpr → Prop) (a : Argument) (e : TypeExpr) :
    Prop where
  read_eq : a.read = .ok e
  of_type : ∀ t, a = .type t → motive t e

theorem Argument.ReadsWith.of_read {motive : Text → TypeExpr → Prop}
    (hmotive : ∀ {t e}, parseType t = .ok e → motive t e) {a : Argument} {e : TypeExpr}
    (h : a.read = .ok e) : a.ReadsWith motive e where
  read_eq := h
  of_type := by
    rintro t rfl
    exact hmotive h

/-- To prove something of every successful reading, prove it of each layer from its parts. -/
theorem parseType_induct {motive : Text → TypeExpr → Prop}
    (reference : ∀ s t isMutable lifetime e, Layer.peel? s = .ok (.reference t isMutable lifetime) →
      parseType t = .ok e → motive t e → motive s (.reference e isMutable lifetime))
    (group : ∀ s whole inner, Layer.peel? s = .ok (.group whole inner) →
      (∃ e, parseType inner = .ok e) → motive s (.verbatim .paren whole))
    (tuple : ∀ s elements es, Layer.peel? s = .ok (.tuple elements) →
      List.Forall₂ (fun t e => parseType t = .ok e ∧ motive t e) elements es →
        motive s (.tuple es))
    (path : ∀ s name args es selfType, Layer.peel? s = .ok (.path name args selfType) →
      List.Forall₂ (Argument.ReadsWith motive) args es →
        motive s (.path name es selfType))
    (verbatim : ∀ s form text, Layer.peel? s = .ok (.verbatim form text) →
      motive s (.verbatim form text)) :
    ∀ {s : Text} {e : TypeExpr}, parseType s = .ok e → motive s e := by
  intro s
  induction hn : s.length using Nat.strong_induction_on generalizing s with
  | _ n ih =>
    intro e h
    obtain ⟨layer, hpeel, hread⟩ := parseType_eq_ok_iff.1 h
    have hpart : ∀ t ∈ layer.parts, ∀ e, parseType t = .ok e → motive t e := by
      intro t ht e he
      have hlt := Layer.length_lt_of_mem_parts hpeel t ht
      have hle := Text.length_strip_le s
      exact ih t.length (by omega) rfl he
    cases layer with
    | reference t isMutable lifetime =>
      obtain ⟨inner, hi, rfl⟩ := Layer.read_reference_eq_ok.1 hread
      exact reference s t isMutable lifetime inner hpeel hi
        (hpart t (List.mem_singleton.2 rfl) inner hi)
    | group whole inner =>
      obtain ⟨hi, rfl⟩ := Layer.read_group_eq_ok.1 hread
      exact group s whole inner hpeel hi
    | tuple elements =>
      obtain ⟨es, hes, rfl⟩ := Layer.read_tuple_eq_ok.1 hread
      have hboth := (List.forall₂_and_left elements es).2 ⟨hpart, hes⟩
      exact tuple s elements es hpeel (hboth.imp fun t e h => ⟨h.2, h.1 e h.2⟩)
    | path name args selfType =>
      obtain ⟨es, hes, rfl⟩ := Layer.read_path_eq_ok.1 hread
      have hargs : ∀ a ∈ args, ∀ t, a = .type t → ∀ e, parseType t = .ok e → motive t e := by
        rintro a ha t rfl
        exact hpart t (List.mem_filterMap.2 ⟨_, ha, rfl⟩)
      have hboth := (List.forall₂_and_left args es).2 ⟨hargs, hes⟩
      refine path s name args es selfType hpeel (hboth.imp fun a e h => ⟨h.2, ?_⟩)
      rintro t rfl
      exact h.1 t rfl e h.2
    | verbatim form text =>
      rw [Layer.read_verbatim_eq_ok.1 hread]
      exact verbatim s form text hpeel

end TypeBridge
