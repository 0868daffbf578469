import TypeBridge.Proofs.Text.Collapse
import TypeBridge.Proofs.TypeExpr.Peeled
import TypeBridge.Proofs.TypeExpr.Read

/-!
Well-formed expressions. Whatever text an expression is read from, its parts are read themselves, so
what one layer makes sure of holds at every depth. Main statement: every expression within one that
is read has identifiers for its names, single spaces in what it keeps of a path, and verbatim text
that is read as itself; and a binding stands nowhere but among generic arguments.
-/

namespace TypeBridge

/-! ### Expressions inside an expression -/

namespace TypeExpr

/-- The expressions that stand directly inside an expression, in order. -/
def parts : TypeExpr → List TypeExpr
  | reference referent _ _ => [referent]
  | tuple elements => elements
  | path _ args _ => args
  | verbatim _ _ => []

/-- The expressions at any depth of another: that one itself, and those within its parts. -/
inductive Within (e : TypeExpr) : TypeExpr → Prop
  | refl : Within e e
  | part {p whole : TypeExpr} : p ∈ whole.parts → Within e p → Within e whole

/-- Whether an expression is the binding of an associated type. -/
def IsBinding : TypeExpr → Prop
  | verbatim form _ => form.tag = Form.binding.tag
  | _ => False

/-- What makes an expression well-formed, apart from the expressions inside it. -/
inductive WellFormed : TypeExpr → Prop
  | reference {referent : TypeExpr} (isMutable : Bool) {lifetime : Option Text} :
    ¬ referent.IsBinding → (∀ name ∈ lifetime, Text.isIdent name = true) →
      WellFormed (reference referent isMutable lifetime)
  | tuple {elements : List TypeExpr} : (∀ e ∈ elements, ¬ e.IsBinding) → WellFormed (tuple elements)
  | path {fullName : Text} {args : List TypeExpr} {selfType : Option Text} :
    ((∃ n : PathName, fullName = n.text) ∨
      (args = [] ∧ '<' ∈ fullName ∧ Text.SingleSpaced fullName)) →
    (∀ self ∈ selfType, Text.SingleSpaced self) → WellFormed (path fullName args selfType)
  | verbatim {form : Form} {text : Text} : text ≠ [] → Text.Trimmed text →
    (¬ (verbatim form text).IsBinding → parse text = .ok (verbatim form text)) →
      WellFormed (verbatim form text)

end TypeExpr

/-! ### One layer -/

namespace Layer

variable {s name : Text} {args : List Argument} {selfType : Option Text}

theorem tag_ne_binding_of_ofWord? {form : Form} {text : Text}
    (h : ofWord? s = .ok (verbatim form text)) : form.tag ≠ Form.binding.tag := by
  unfold ofWord? at h
  repeat' split at h
  case isFalse =>
    rcases ofPath?_cases h with hl | ⟨_, _, hl⟩ <;> cases hl
    decide
  all_goals
    cases h
    decide

/-- The only texts that are kept as bindings are generic arguments. -/
theorem tag_ne_binding {form : Form} {text : Text} (h : ofStripped? s = .ok (verbatim form text)) :
    form.tag ≠ Form.binding.tag := by
  cases s with
  | nil => cases h
  | cons c rest =>
    simp only [ofStripped?] at h
    split at h
    · obtain ⟨_, _, _, hl, _⟩ := ofReference?_eq_ok h
      cases hl
    split at h
    · cases h
      decide
    split at h
    · unfold ofSquare? at h
      split at h <;> cases h
      split <;> decide
    split at h
    · obtain ⟨inside, _, _, hl⟩ := ofRound?_eq_ok_iff.1 h
      rcases ofContent_cases (c :: rest) (Text.strip inside) with ⟨_, hc⟩ | ⟨_, hc⟩ <;>
        cases hl.trans hc
    split at h
    · obtain ⟨_, _, _, _, _, _, _, _, _, _, _, hl⟩ := ofQualified?_eq_ok h
      cases hl
    exact tag_ne_binding_of_ofWord? h

/-- The name of a path and its generic arguments; a name that is no row of identifiers is the
collapsed text of the path. -/
theorem ofPath?_name_or_collapsed (h : ofPath? s = .ok (path name args selfType)) :
    ((∃ n : PathName, name = n.text) ∨ (args = [] ∧ '<' ∈ name ∧ Text.SingleSpaced name)) ∧
      ∀ a ∈ args, ∃ piece, argument? piece = some a := by
  rcases ofPath?_eq_ok h with ⟨_, hl⟩ | ⟨n, _, hl⟩ | ⟨n, start, inside, after, hs, _, _, _, hl⟩
  · cases hl
  · cases hl
    exact ⟨.inl ⟨n, rfl⟩, nofun⟩
  · unfold ofArguments at hl
    split at hl
    · cases hl
      refine ⟨.inl ⟨n, rfl⟩, fun a ha => ?_⟩
      obtain ⟨piece, _, hpiece⟩ := List.mem_filterMap.1 ha
      exact ⟨piece, hpiece⟩
    · cases hl
      have hangle : '<' ∈ s := by
        rw [hs]
        exact List.mem_append_right start List.mem_cons_self
      have hkept : '<' ∈ Text.collapse s := (Text.mem_collapse_iff (by decide)).2 hangle
      exact ⟨.inr ⟨rfl, hkept, Text.singleSpaced_collapse s⟩, nofun⟩

/-- A path is read as one behind its self type, if it has any. -/
theorem exists_ofPath?_of_peel? (h : peel? s = .ok (path name args selfType)) :
    (∃ t selfType', ofPath? t = .ok (path name args selfType')) ∧
      ∀ self ∈ selfType, Text.SingleSpaced self := by
  rcases ofStripped?_eq_path h with ⟨_, _, _, hl⟩ | ⟨rfl, _, hl⟩
  · obtain ⟨inside, _, tail, _, _, _, _, _, _, _, hpath, hl⟩ := ofQualified?_eq_ok hl
    cases hl
    refine ⟨⟨_, _, hpath⟩, ?_⟩
    rintro self ⟨⟩
    exact Text.singleSpaced_collapse inside
  · exact ⟨⟨_, _, hl⟩, nofun⟩

end Layer

namespace TypeExpr

variable {e p : TypeExpr}

theorem not_isBinding_of_parseType {s : Text} (h : parseType s = .ok e) : ¬ e.IsBinding := by
  obtain ⟨layer, hpeel, hread⟩ := parseType_eq_ok_iff.1 h
  cases layer with
  | reference t isMutable lifetime =>
    obtain ⟨_, _, rfl⟩ := Layer.read_reference_eq_ok.1 hread
    exact id
  | group whole inner =>
    obtain ⟨_, rfl⟩ := Layer.read_group_eq_ok.1 hread
    exact (by decide : Form.paren.tag ≠ Form.binding.tag)
  | tuple elements =>
    obtain ⟨_, _, rfl⟩ := Layer.read_tuple_eq_ok.1 hread
    exact id
  | path name args selfType =>
    obtain ⟨_, _, rfl⟩ := Layer.read_path_eq_ok.1 hread
    exact id
  | verbatim form text =>
    rw [Layer.read_verbatim_eq_ok.1 hread]
    exact Layer.tag_ne_binding hpeel

/-- Verbatim text is read as itself. -/
theorem wellFormed_verbatim {s text : Text} {form : Form} (htext : text = Text.strip s)
    (h : parseType s = .ok (verbatim form text)) : WellFormed (verbatim form text) := by
  have hread : parse text = .ok (verbatim form text) := by
    rw [parse_eq_ok_iff, ← h, htext]
    exact parseType_congr (Text.strip_strip s)
  refine .verbatim ?_ (htext ▸ Text.trimmed_strip s) fun _ => hread
  rintro rfl
  cases hread

theorem wellFormed_of_parseType {s : Text} (h : parseType s = .ok e) : e.WellFormed := by
  obtain ⟨layer, hpeel, hread⟩ := parseType_eq_ok_iff.1 h
  cases layer with
  | reference t isMutable lifetime =>
    obtain ⟨referent, hreferent, rfl⟩ := Layer.read_reference_eq_ok.1 hread
    obtain ⟨_, _, hrest⟩ := Layer.ofStripped?_eq_reference hpeel
    refine .reference isMutable (not_isBinding_of_parseType hreferent) ?_
    obtain ⟨_, _, _, hl, _, hcases⟩ := Layer.ofReference?_eq_ok hrest
    cases hl
    rcases hcases with ⟨rfl, _⟩ | ⟨name, _, rfl, hname, _⟩
    · exact nofun
    · rintro _ ⟨⟩
      exact hname
  | group whole inner =>
    obtain ⟨_, rfl⟩ := Layer.read_group_eq_ok.1 hread
    exact wellFormed_verbatim (Layer.ofStripped?_eq_group hpeel) h
  | tuple elements =>
    obtain ⟨es, hes, rfl⟩ := Layer.read_tuple_eq_ok.1 hread
    exact .tuple (forall_right_of_forall₂ hes fun t e he => not_isBinding_of_parseType he)
  | path name args selfType =>
    obtain ⟨es, hes, rfl⟩ := Layer.read_path_eq_ok.1 hread
    obtain ⟨⟨_, _, hpath⟩, hself⟩ := Layer.exists_ofPath?_of_peel? hpeel
    obtain ⟨hname, _⟩ := Layer.ofPath?_name_or_collapsed hpath
    refine .path (hname.imp id fun ⟨hargs, hspaced⟩ => ⟨?_, hspaced⟩) hself
    rw [hargs] at hes
    cases hes
    rfl
  | verbatim form text =>
    cases Layer.read_verbatim_eq_ok.1 hread
    exact wellFormed_verbatim (Layer.ofStripped?_eq_verbatim hpeel) h

/-! ### Every depth -/

/-- What stands in an expression that is read: what is read itself, and bindings. -/
inductive Readable : TypeExpr → Prop
  | read {s : Text} {e : TypeExpr} : parseType s = .ok e → Readable e
  | binding {text : Text} : Text.Trimmed text → Layer.isBinding text = true →
    Readable (verbatim .binding text)

theorem Readable.wellFormed (h : Readable e) : e.WellFormed := by
  cases h with
  | read h => exact wellFormed_of_parseType h
  | binding htrim hbinding =>
    refine .verbatim ?_ htrim fun hnot => absurd rfl hnot
    rintro rfl
    cases hbinding

theorem readable_of_argument {piece : Text} {a : Argument} (hpiece : Layer.argument? piece = some a)
    (h : a.read = .ok e) : Readable e := by
  cases a with
  | type t => exact .read h
  | binding t =>
    obtain ⟨rfl, hbinding⟩ := Layer.argument?_eq_binding_iff.1 hpiece
    cases h
    exact .binding (Text.trimmed_strip piece) hbinding

/-- The parts of what stands in a reading stand there too. -/
theorem Readable.of_mem_parts (h : Readable e) (hp : p ∈ e.parts) : Readable p := by
  cases h with
  | binding => cases hp
  | read h =>
    obtain ⟨layer, hpeel, hread⟩ := parseType_eq_ok_iff.1 h
    cases layer with
    | reference t isMutable lifetime =>
      obtain ⟨referent, hreferent, rfl⟩ := Layer.read_reference_eq_ok.1 hread
      rw [List.mem_singleton.1 hp]
      exact .read hreferent
    | group whole inner =>
      obtain ⟨_, rfl⟩ := Layer.read_group_eq_ok.1 hread
      cases hp
    | tuple elements =>
      obtain ⟨es, hes, rfl⟩ := Layer.read_tuple_eq_ok.1 hread
      exact forall_right_of_forall₂ hes (fun t e he => .read he) p hp
    | path name args selfType =>
      obtain ⟨es, hes, rfl⟩ := Layer.read_path_eq_ok.1 hread
      obtain ⟨⟨_, _, hpath⟩, _⟩ := Layer.exists_ofPath?_of_peel? hpeel
      obtain ⟨_, hpieces⟩ := Layer.ofPath?_name_or_collapsed hpath
      exact forall_mem_of_forall₂ hes hpieces
        (fun a e ⟨_, hpiece⟩ he => readable_of_argument hpiece he) p hp
    | verbatim form text =>
      cases Layer.read_verbatim_eq_ok.1 hread
      cases hp

theorem Readable.of_within {whole : TypeExpr} (hw : Readable whole) (h : e.Within whole) :
    Readable e := by
  induction h with
  | refl => exact hw
  | part hp _ ih => exact ih (hw.of_mem_parts hp)

end TypeExpr

/-- Every expression within one that is read is well-formed, and that one is no binding. -/
theorem parse_wellFormed {s : Text} {whole : TypeExpr} (h : parse s = .ok whole) :
    ¬ whole.IsBinding ∧ ∀ e : TypeExpr, e.Within whole → e.WellFormed := by
  rw [parse_eq_ok_iff] at h
  exact ⟨TypeExpr.not_isBinding_of_parseType h, fun e he =>
    ((TypeExpr.Readable.read h).of_within he).wellFormed⟩

/-- A binding, and a path that goes on behind its generic arguments. -/
theorem parse_wellFormed_arguments :
    let s := "Vec< Item = u8, Vec<T>\n::  X>".toList
    let binding := TypeExpr.verbatim .binding "Item = u8".toList
    let associated := TypeExpr.path "Vec<T> :: X".toList [] none
    let whole := TypeExpr.path "Vec".toList [binding, associated] none
    parse s = .ok whole ∧ ¬ whole.IsBinding ∧ binding.IsBinding ∧ binding.WellFormed ∧
      associated.WellFormed := by
  intro s binding associated whole
  have hpath : Layer.peel? s = .ok (.path "Vec".toList
      [.binding "Item = u8".toList, .type "Vec<T>\n::  X".toList] none) := by decide +kernel
  have hassociated : Layer.peel? "Vec<T>\n::  X".toList
      = .ok (.path "Vec<T> :: X".toList [] none) := by decide +kernel
  have hargs : List.Forall₂ (fun (a : Argument) e => a.read = .ok e)
      [.binding "Item = u8".toList, .type "Vec<T>\n::  X".toList] [binding, associated] :=
    .cons rfl (.cons (parseType_eq_ok_iff.2 ⟨_, hassociated, rfl⟩) .nil)
  have hs : parse s = .ok whole :=
    parse_eq_ok_iff.2 (parseType_eq_ok_iff.2 ⟨_, hpath, Layer.read_path_eq_ok.2 ⟨_, hargs, rfl⟩⟩)
  obtain ⟨hwhole, hwithin⟩ := parse_wellFormed hs
  refine ⟨hs, hwhole, rfl, hwithin binding ?_, hwithin associated ?_⟩
  · exact .part List.mem_cons_self .refl
  · exact .part (List.mem_cons_of_mem binding List.mem_cons_self) .refl

end TypeBridge
