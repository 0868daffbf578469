import Mathlib.Tactic.Choose
import TypeBridge.Proofs.TypeExpr.WellFormed

/-!
How far reading goes into a text. The texts inside a layer stand apart in it beside the characters
of the layer itself, so the readings that a text calls for, and the nodes of what is read, are paid
for with its characters. Main statement: every reading that is called for is of a shorter text, it
comes to an end with at most as many calls as there are characters, and an expression has at most as
many nodes.
-/

namespace TypeBridge

/-! ### The texts inside a layer -/

/-- The text of a generic argument. -/
def Argument.text : Argument → Text
  | binding text => text
  | type text => text

namespace Layer

/-- The texts inside a layer in order, those of bindings among them. -/
def texts : Layer → List Text
  | reference referent _ _ => [referent]
  | group _ inner => [inner]
  | tuple elements => elements
  | path _ args _ => args.map Argument.text
  | verbatim _ _ => []

variable {s : Text}

theorem parts_sublist_texts (layer : Layer) : layer.parts.Sublist layer.texts := by
  cases layer with
  | path name args selfType =>
    show (args.filterMap _).Sublist (args.map Argument.text)
    induction args with
    | nil => exact .slnil
    | cons a args ih =>
      cases a with
      | binding text => exact ih.cons text
      | type text => exact ih.cons_cons text
  | _ => exact List.Sublist.refl _

theorem text_eq_strip_of_argument? {piece : Text} {a : Argument} (h : argument? piece = some a) :
    a.text = Text.strip piece := by
  cases a with
  | binding text => exact (argument?_eq_binding_iff.1 h).1
  | type text => exact (argument?_eq_type_iff.1 h).1

theorem text_ne_nil_of_argument? {piece : Text} {a : Argument} (h : argument? piece = some a) :
    a.text ≠ [] := by
  cases a with
  | binding text =>
    obtain ⟨_, hbinding⟩ := argument?_eq_binding_iff.1 h
    rintro rfl
    cases hbinding
  | type text => exact (argument?_eq_type_iff.1 h).2.1

theorem length_flatten_arguments_le (pieces : List Text) :
    ((pieces.filterMap argument?).map Argument.text).flatten.length
      ≤ pieces.flatten.length := by
  induction pieces with
  | nil => exact Nat.le_refl 0
  | cons piece rest ih =>
    rw [List.flatten_cons, List.length_append]
    cases ha : argument? piece with
    | none =>
      rw [List.filterMap_cons_none ha]
      omega
    | some a =>
      have hlength := Text.length_strip_le piece
      rw [List.filterMap_cons_some ha, List.map_cons, List.flatten_cons, List.length_append,
        text_eq_strip_of_argument? ha]
      omega

theorem length_flatten_args_of_ofPath? {name : Text} {args : List Argument} {selfType : Option Text}
    (h : ofPath? s = .ok (path name args selfType)) :
    (args.map Argument.text).flatten.length + args.length ≤ s.length := by
  rcases ofPath?_eq_ok h with ⟨_, hl⟩ | ⟨_, _, hl⟩ | ⟨_, start, inside, after, rfl, _, _, _, hl⟩
  · cases hl
  · cases hl
    exact Nat.zero_le _
  · unfold ofArguments at hl
    split at hl <;> cases hl
    · have htotal := length_flatten_arguments_le (splitPieces inside)
      have hcount := List.length_filterMap_le argument? (splitPieces inside)
      have hpieces := length_flatten_splitPieces_le inside
      rw [List.length_append, List.length_cons, List.length_append, List.length_cons]
      omega
    · exact Nat.zero_le _

/-- The texts inside a layer, with one character more for each, fit into the text it is peeled
off. -/
theorem length_flatten_texts_le {layer : Layer} (h : peel? s = .ok layer) :
    layer.texts.flatten.length + layer.texts.length ≤ (Text.strip s).length := by
  cases layer with
  | reference t isMutable lifetime =>
    rw [texts, List.flatten_singleton]
    exact length_lt_of_mem_parts h t (List.mem_singleton.2 rfl)
  | group whole inner =>
    rw [texts, List.flatten_singleton]
    exact length_lt_of_mem_parts h inner (List.mem_singleton.2 rfl)
  | tuple elements =>
    obtain ⟨inside, hs, hcontent⟩ := ofStripped?_eq_tuple h
    obtain ⟨rfl, _⟩ := ofContent_eq_tuple_iff.1 hcontent
    have hkept := (List.filter_sublist (l := splitPieces (Text.strip inside))
      (p := fun piece => !Text.isBlankText piece))
    have htotal := Text.length_flatten_le_of_sublist hkept
    have hcount := hkept.length_le
    have hpieces := length_flatten_splitPieces_le (Text.strip inside)
    have hlength := Text.length_strip_le inside
    rw [hs, List.length_cons, List.length_append]
    simp only [texts]
    omega
  | path name args selfType =>
    simp only [texts, List.length_map]
    rcases ofStripped?_eq_path h with ⟨rest, hs, _, hl⟩ | ⟨_, _, hpath⟩
    · obtain ⟨inside, after, tail, _, _, _, rfl, _, _, hafter, hpath, hl⟩ := ofQualified?_eq_ok hl
      cases hl
      have hargs := length_flatten_args_of_ofPath? hpath
      have htail := Text.length_strip_le tail
      have hbehind := Text.length_strip_le after
      rw [hafter, List.length_cons, List.length_cons] at hbehind
      rw [hs, List.length_cons, List.length_append, List.length_cons]
      omega
    · exact length_flatten_args_of_ofPath? hpath
  | verbatim form text => exact Nat.zero_le _

theorem length_strip_pos {layer : Layer} (h : peel? s = .ok layer) : 0 < (Text.strip s).length := by
  rw [List.length_pos_iff]
  intro hnil
  rw [peel?, hnil] at h
  cases h

end Layer

/-! ### Nodes -/

mutual

/-- The number of nodes of an expression: the expressions at all depths, itself among them. -/
def TypeExpr.nodes : TypeExpr → Nat
  | .reference referent _ _ => referent.nodes + 1
  | .tuple elements => nodesAll elements + 1
  | .path _ args _ => nodesAll args + 1
  | .verbatim _ _ => 1

/-- The number of nodes of several expressions together. -/
def nodesAll : List TypeExpr → Nat
  | [] => 0
  | e :: es => e.nodes + nodesAll es

end

theorem nodesAll_le {texts : List Text} {es : List TypeExpr}
    (h : List.Forall₂ (fun t e => e.nodes ≤ t.length) texts es) :
    nodesAll es ≤ texts.flatten.length := by
  induction h with
  | nil => exact Nat.le_refl 0
  | cons hnodes _ ih =>
    rw [nodesAll, List.flatten_cons, List.length_append]
    omega

theorem nodes_le_length_of_readsWith {a : Argument} {e : TypeExpr} (hne : a.text ≠ [])
    (h : a.ReadsWith (fun t e => e.nodes ≤ (Text.strip t).length) e) : e.nodes ≤ a.text.length := by
  cases a with
  | binding text =>
    obtain rfl : .verbatim .binding text = e := Except.ok.inj h.read_eq
    exact List.length_pos_iff.2 hne
  | type text => exact (h.of_type text rfl).trans (Text.length_strip_le text)

/-- The nodes inside a layer are paid for with the texts inside it, and the layer itself with one
character more. -/
theorem nodesAll_lt_of_peel? {s : Text} {layer : Layer} {es : List TypeExpr}
    (hpeel : Layer.peel? s = .ok layer)
    (hes : List.Forall₂ (fun t e => e.nodes ≤ t.length) layer.texts es) :
    nodesAll es < (Text.strip s).length := by
  have hparts := nodesAll_le hes
  have hfit := Layer.length_flatten_texts_le hpeel
  have hpos := Layer.length_strip_pos hpeel
  cases htexts : layer.texts with
  | nil =>
    rw [htexts] at hparts
    exact Nat.lt_of_le_of_lt hparts hpos
  | cons t rest =>
    rw [htexts] at hparts hfit
    rw [List.length_cons] at hfit
    omega

/-- An expression that is read has at most as many nodes as its text has characters. -/
theorem nodes_le_length_of_parseType {s : Text} {e : TypeExpr} (h : parseType s = .ok e) :
    e.nodes ≤ (Text.strip s).length := by
  -- By induction on the reading; the texts of the parts lose blanks before they are read.
  refine parseType_induct (motive := fun s e => e.nodes ≤ (Text.strip s).length) ?_ ?_ ?_ ?_ ?_ h
  · intro s t isMutable lifetime e hpeel _ ih
    exact nodesAll_lt_of_peel? hpeel (.cons (ih.trans (Text.length_strip_le t)) .nil)
  · intro s whole inner hpeel _
    exact Layer.length_strip_pos hpeel
  · intro s elements es hpeel hes
    exact nodesAll_lt_of_peel? hpeel (hes.imp fun t e he => he.2.trans (Text.length_strip_le t))
  · intro s name args es selfType hpeel hes
    obtain ⟨⟨_, _, hpath⟩, _⟩ := Layer.exists_ofPath?_of_peel? hpeel
    have hwritten : ∀ a ∈ args, a.text ≠ [] := by
      intro a ha
      obtain ⟨piece, hpiece⟩ := (Layer.ofPath?_name_or_collapsed hpath).2 a ha
      exact Layer.text_ne_nil_of_argument? hpiece
    have hboth := (List.forall₂_and_left args es).2 ⟨hwritten, hes⟩
    have htexts := hboth.imp fun a e he => nodes_le_length_of_readsWith he.1 he.2
    exact nodesAll_lt_of_peel? hpeel (List.forall₂_map_left_iff.2 htexts)
  · intro s form text hpeel
    exact Layer.length_strip_pos hpeel

/-! ### Calls -/

/-- The texts that are read when they are read in turn: all up to the first that is rejected. -/
def readUntil (result : Text → Except ParseError TypeExpr) : List Text → List Text
  | [] => []
  | t :: rest =>
    match result t with
    | .error _ => [t]
    | .ok _ => t :: readUntil result rest

/-- The expression of a generic argument, with the given results for the texts of types. -/
def Argument.readBy (result : Text → Except ParseError TypeExpr) :
    Argument → Except ParseError TypeExpr
  | binding text => .ok (.verbatim .binding text)
  | type text => result text

/-- The expression of a layer, with the given results for its parts. -/
def Layer.readBy (result : Text → Except ParseError TypeExpr) : Layer → Except ParseError TypeExpr
  | reference referent isMutable lifetime => do
    return .reference (← result referent) isMutable lifetime
  | group whole inner => do
    let _ ← result inner
    return .verbatim .paren whole
  | tuple elements => do
    return .tuple (← elements.mapM result)
  | path name args selfType => do
    return .path name (← args.mapM (Argument.readBy result)) selfType
  | verbatim form text => .ok (.verbatim form text)

/-- A run of the reader on a text, with its result and the calls that it makes in order, each as the
text that calls and the one that is read for it: the parts of the layer are read in turn, up to the
first that is rejected. -/
inductive ReadsIn : Text → Except ParseError TypeExpr → List (Text × Text) → Prop
  | rejected {s : Text} {error : ParseError} (hpeel : Layer.peel? s = .error error) :
    ReadsIn s (.error error) []
  | layered {s : Text} {layer : Layer} {result : Text → Except ParseError TypeExpr}
      {calls : Text → List (Text × Text)} (hpeel : Layer.peel? s = .ok layer)
      (hparts : ∀ t ∈ readUntil result layer.parts, ReadsIn t (result t) (calls t)) :
    ReadsIn s (layer.readBy result)
      ((readUntil result layer.parts).flatMap fun t => (s, t) :: calls t)

section

variable {result result' : Text → Except ParseError TypeExpr}

theorem readUntil_cons_of_ok {t : Text} {e : TypeExpr} (h : result t = .ok e) (rest : List Text) :
    readUntil result (t :: rest) = t :: readUntil result rest := by
  rw [readUntil, h]

theorem mem_readUntil_cons (result : Text → Except ParseError TypeExpr) (t : Text)
    (rest : List Text) : t ∈ readUntil result (t :: rest) := by
  unfold readUntil
  split <;> exact List.mem_cons_self

theorem readUntil_isPrefix (result : Text → Except ParseError TypeExpr) : ∀ texts : List Text,
    readUntil result texts <+: texts
  | [] => List.nil_prefix
  | t :: rest => by
    unfold readUntil
    split
    · exact List.cons_prefix_cons.2 ⟨rfl, List.nil_prefix⟩
    · exact List.cons_prefix_cons.2 ⟨rfl, readUntil_isPrefix result rest⟩

/-- Two results that are the same for all that is read in turn come to the same. -/
theorem mapM_congr_readUntil : ∀ {texts : List Text},
    (∀ t ∈ readUntil result texts, result t = result' t) →
      texts.mapM result = texts.mapM result'
  | [], _ => rfl
  | t :: rest, h => by
    rw [List.mapM_cons, List.mapM_cons, ← h t (mem_readUntil_cons result t rest)]
    cases ht : result t with
    | error e => rfl
    | ok e =>
      rw [readUntil_cons_of_ok ht] at h
      rw [mapM_congr_readUntil (List.forall_mem_cons.1 h).2]

theorem mapM_readBy_congr {name : Text} {selfType : Option Text} : ∀ {args : List Argument},
    (∀ t ∈ readUntil result (Layer.path name args selfType).parts, result t = result' t) →
      args.mapM (Argument.readBy result) = args.mapM (Argument.readBy result')
  | [], _ => rfl
  | .binding text :: args, h => by
    have htail : ∀ t ∈ readUntil result (Layer.path name args selfType).parts,
        result t = result' t := h
    rw [List.mapM_cons, List.mapM_cons, mapM_readBy_congr htail]
    rfl
  | .type text :: args, h => by
    have hparts : (Layer.path name (.type text :: args) selfType).parts
        = text :: (Layer.path name args selfType).parts := rfl
    rw [hparts] at h
    have htext : Argument.readBy result (.type text) = Argument.readBy result' (.type text) :=
      h text (mem_readUntil_cons result text _)
    rw [List.mapM_cons, List.mapM_cons, ← htext]
    cases ht : result text with
    | error e =>
      rw [Argument.readBy, ht]
      rfl
    | ok e =>
      rw [readUntil_cons_of_ok ht] at h
      rw [mapM_readBy_congr (List.forall_mem_cons.1 h).2]

theorem Layer.readBy_congr {layer : Layer}
    (h : ∀ t ∈ readUntil result layer.parts, result t = result' t) :
    layer.readBy result = layer.readBy result' := by
  cases layer with
  | reference t isMutable lifetime =>
    rw [readBy, readBy, h t (mem_readUntil_cons result t [])]
  | group whole inner => rw [readBy, readBy, h inner (mem_readUntil_cons result inner [])]
  | tuple elements =>
    have helements : elements.mapM result = elements.mapM result' := mapM_congr_readUntil h
    rw [readBy, readBy, helements]
  | path name args selfType => rw [readBy, readBy, mapM_readBy_congr h]
  | verbatim form text => rfl

end

/-- A layer is read with the readings of its parts. -/
theorem Layer.read_eq_readBy (layer : Layer) : layer.read = layer.readBy parseType := by
  have hargument : Argument.read = Argument.readBy parseType := by
    funext a
    cases a <;> rfl
  cases layer with
  | path name args selfType => rw [read, readBy, hargument]
  | _ => rfl

/-- Reading comes to an end. -/
theorem exists_readsIn (s : Text) : ∃ calls, ReadsIn s (parseType s) calls := by
  cases hpeel : Layer.peel? s with
  | error e =>
    have herror : parseType s = .error e := by rw [parseType_eq, hpeel]; rfl
    exact ⟨[], herror ▸ .rejected hpeel⟩
  | ok layer =>
    have hread : parseType s = layer.readBy parseType := by
      rw [parseType_eq, hpeel, ← Layer.read_eq_readBy]
      rfl
    have hparts : ∀ t ∈ readUntil parseType layer.parts, ∃ calls, ReadsIn t (parseType t) calls :=
      fun t ht =>
        have hlt := Layer.length_lt_of_mem_parts hpeel t ((readUntil_isPrefix _ _).subset ht)
        have hle := Text.length_strip_le s
        exists_readsIn t
    choose! calls hcalls using hparts
    rw [hread]
    exact ⟨_, .layered hpeel hcalls⟩
termination_by s.length

namespace ReadsIn

variable {s : Text} {result : Except ParseError TypeExpr} {calls : List (Text × Text)}

/-- A run ends with what is read. -/
theorem result_eq (h : ReadsIn s result calls) : result = parseType s := by
  induction h with
  | rejected hpeel =>
    rw [parseType_eq, hpeel]
    rfl
  | @layered s layer result calls hpeel _ ih =>
    rw [parseType_eq, hpeel, Layer.readBy_congr ih, ← Layer.read_eq_readBy]
    rfl

/-- Each call is for a shorter text than the stripped text that makes it. -/
theorem length_lt_of_mem (h : ReadsIn s result calls) {call : Text × Text} (hc : call ∈ calls) :
    call.2.length < (Text.strip call.1).length := by
  induction h with
  | rejected => cases hc
  | @layered s layer result calls hpeel _ ih =>
    obtain ⟨t, ht, hc⟩ := List.mem_flatMap.1 hc
    rcases List.mem_cons.1 hc with rfl | hc
    · exact Layer.length_lt_of_mem_parts hpeel t ((readUntil_isPrefix _ _).subset ht)
    · exact ih t ht hc

/-- The calls are paid for with the characters of the text. -/
theorem length_calls_le (h : ReadsIn s result calls) : calls.length ≤ (Text.strip s).length := by
  induction h with
  | rejected => exact Nat.zero_le _
  | @layered s layer result calls hpeel _ ih =>
    have hread : (readUntil result layer.parts).Sublist layer.texts :=
      (readUntil_isPrefix result layer.parts).sublist.trans layer.parts_sublist_texts
    have hcalls : ∀ t ∈ readUntil result layer.parts,
        ((s, t) :: calls t).length ≤ t.length + 1 := fun t ht =>
      Nat.succ_le_succ ((ih t ht).trans (Text.length_strip_le t))
    have htotal := Text.length_flatMap_le 1 hcalls
    have hlength := Text.length_flatten_le_of_sublist hread
    have hcount := hread.length_le
    have hfit := Layer.length_flatten_texts_le hpeel
    omega

end ReadsIn

/-- Reading comes to an end within its text, whatever the text is: every run of it ends with what is
read, each of its calls is for a shorter text than the stripped text that makes it, and there are at
most as many calls as characters; and an expression that is read has at most as many nodes. -/
theorem reading_within_text (s : Text) :
    (∃ calls, ReadsIn s (parseType s) calls) ∧
    (∀ result calls, ReadsIn s result calls → result = parseType s ∧
      (∀ call ∈ calls, call.2.length < (Text.strip call.1).length) ∧
      calls.length ≤ (Text.strip s).length) ∧
    ∀ e, parse s = .ok e → e.nodes ≤ (Text.strip s).length := by
  refine ⟨exists_readsIn s, fun result calls h => ?_, fun e h => ?_⟩
  · exact ⟨h.result_eq, fun call hc => h.length_lt_of_mem hc, h.length_calls_le⟩
  · exact nodes_le_length_of_parseType (parse_eq_ok_iff.1 h)

/-- Four nodes, read with two calls; the binding is kept without one. -/
theorem reading_within_text_binding :
    let inner := "&'a T".toList
    let s := " Vec<Item = u8, &'a T> ".toList
    let name := TypeExpr.path "T".toList [] none
    let referent := TypeExpr.reference name false (some "a".toList)
    let whole := TypeExpr.path "Vec".toList [.verbatim .binding "Item = u8".toList, referent] none
    let calls := [(s, inner), (inner, "T".toList)]
    ReadsIn s (.ok whole) calls ∧ parse s = .ok whole ∧ whole.nodes = 4 ∧
      (∀ call ∈ calls, call.2.length < (Text.strip call.1).length) ∧
      calls.length ≤ (Text.strip s).length ∧ whole.nodes ≤ (Text.strip s).length := by
  intro inner s name referent whole calls
  have hpeel : Layer.peel? s
      = .ok (.path "Vec".toList [.binding "Item = u8".toList, .type inner] none) := by
    decide +kernel
  have hpeelInner : Layer.peel? inner = .ok (.reference "T".toList false (some "a".toList)) := by
    decide +kernel
  have hpeelName : Layer.peel? "T".toList = .ok (.path "T".toList [] none) := by decide +kernel
  -- The run, from the inside out.
  have hname : ReadsIn "T".toList (.ok name) [] :=
    @ReadsIn.layered _ _ parseType (fun _ => []) hpeelName nofun
  have hreferent : ReadsIn inner (.ok referent) [(inner, "T".toList)] :=
    @ReadsIn.layered _ _ (fun _ => .ok name) (fun _ => []) hpeelInner
      (List.forall_mem_singleton.2 hname)
  have hwhole : ReadsIn s (.ok whole) calls :=
    @ReadsIn.layered _ _ (fun _ => .ok referent) (fun _ => [(inner, "T".toList)]) hpeel
      (List.forall_mem_singleton.2 hreferent)
  obtain ⟨_, hruns, hnodes⟩ := reading_within_text s
  obtain ⟨hresult, hshorter, hcount⟩ := hruns (.ok whole) calls hwhole
  have hparse : parse s = .ok whole := parse_eq_ok_iff.2 hresult.symm
  exact ⟨hwhole, hparse, rfl, hshorter, hcount, hnodes whole hparse⟩

end TypeBridge
