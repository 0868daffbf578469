import TypeBridge.Proofs.TypeExpr.Print
import TypeBridge.Proofs.TypeExpr.SpelledReading

/-!
The printed form as a spelling. Main statement: an expression is read from all of its spellings,
and its printed form is one of them.
-/

namespace TypeBridge

namespace LaidOut

variable {tokens others : List Text} {token s rest : Text}

/-- A token that is no word can be written directly before others. -/
theorem cons_mark (h : LaidOut tokens rest) (ht : isWordToken token = false) :
    LaidOut (token :: tokens) (token ++ rest) := by
  refine ⟨[], rest, Text.blank_nil, rfl, h, fun hw => ?_⟩
  rw [ht] at hw
  exact absurd hw (by decide)

theorem append_mark (h : LaidOut tokens s) (ht : isWordToken token = false)
    (h' : LaidOut others rest) : LaidOut (tokens ++ token :: others) (s ++ (token ++ rest)) := by
  refine h.append (h'.cons_mark ht) fun next hm => ?_
  cases hm
  exact ht

/-- Any token can be written before others with a space between. -/
theorem cons_space (h : LaidOut tokens rest) : LaidOut (token :: tokens) (token ++ ' ' :: rest) :=
  ⟨[], ' ' :: rest, Text.blank_nil, rfl, h.blank_append Text.blank_space,
    fun _ _ => ⟨' ', rfl, by decide⟩⟩

theorem singleton (token : Text) : LaidOut [token] token := by
  refine ⟨[], [], Text.blank_nil, by simp, Text.blank_nil, fun _ hn => ?_⟩
  obtain ⟨next, hm, _⟩ := hn
  cases hm

theorem segments : ∀ (first : Text) (rest : List Text),
    LaidOut (first :: rest.flatMap fun segment => [[':', ':'], segment])
      ([':', ':'].intercalate (first :: rest))
  | first, [] => by
    rw [List.intercalate_singleton]
    exact singleton first
  | first, segment :: rest => by
    have hcolons : isWordToken [':', ':'] = false := by decide
    rw [List.intercalate_cons_cons, List.append_assoc]
    exact (singleton first).append_mark hcolons (segments segment rest)

theorem tokens_text (n : PathName) : LaidOut n.tokens n.text := by
  have h := segments n.first n.rest
  unfold PathName.tokens PathName.text PathName.segments
  cases n.isRooted with
  | false => exact h
  | true => exact cons_mark h (by decide)

/-- Rows with a comma and a space between neighbours. -/
theorem intercalate : ∀ {rows : List (List Text)} {texts : List Text},
    List.Forall₂ LaidOut rows texts →
      LaidOut (separatedTokens rows) (", ".toList.intercalate texts)
  | _, _, .nil => Text.blank_nil
  | _, _, .cons h .nil => by
    rw [List.intercalate_singleton]
    exact h
  | _, _, .cons h (.cons h' hrest) => by
    have hcomma : isWordToken [','] = false := by decide
    rw [List.intercalate_cons_cons, List.append_assoc]
    exact h.append_mark hcomma ((intercalate (.cons h' hrest)).blank_append Text.blank_space)

end LaidOut

/-- Rows of tokens chosen for several expressions. -/
theorem exists_items {P : TypeExpr → List Text → Prop} : ∀ {es : List TypeExpr},
    (∀ e ∈ es, ∃ tokens, P e tokens) →
      ∃ items : List (TypeExpr × List Text), items.map Prod.fst = es ∧
        ∀ item ∈ items, P item.1 item.2
  | [], _ => ⟨[], rfl, nofun⟩
  | e :: es, h => by
    obtain ⟨he, hes⟩ := List.forall_mem_cons.1 h
    obtain ⟨tokens, ht⟩ := he
    obtain ⟨items, rfl, hi⟩ := exists_items hes
    exact ⟨(e, tokens) :: items, rfl, List.forall_mem_cons.2 ⟨ht, hi⟩⟩

theorem forall₂_laidOut {items : List (TypeExpr × List Text)}
    (h : ∀ item ∈ items, LaidOut item.2 item.1.print) :
    List.Forall₂ LaidOut (items.map Prod.snd) (TypeExpr.printAll (items.map Prod.fst)) := by
  rw [TypeExpr.printAll_eq_map, List.map_map, List.forall₂_map_left_iff, List.forall₂_map_right_iff,
    List.forall₂_same]
  exact h

theorem laidOut_argsText {rows : List (List Text)} {texts : List Text}
    (h : List.Forall₂ LaidOut rows texts) (hne : texts ≠ []) :
    LaidOut (['<'] :: (listTokens rows false ++ [['>']])) (TypeExpr.argsText texts) := by
  have hopen : isWordToken ['<'] = false := by decide
  have hclose : LaidOut [['>']] " >".toList :=
    (LaidOut.singleton ['>']).blank_append Text.blank_space
  have hlist := (LaidOut.intercalate h).append hclose (by decide)
  have hall := ((hlist.blank_append Text.blank_space).cons_mark hopen).blank_append Text.blank_space
  rw [listTokens, if_neg Bool.false_ne_true, List.append_nil]
  rw [TypeExpr.argsText_of_ne_nil hne, List.append_assoc]
  exact hall

theorem laidOut_tupleText {rows : List (List Text)} {texts : List Text}
    (h : List.Forall₂ LaidOut rows texts) :
    LaidOut (['('] :: (listTokens rows (rows.length == 1) ++ [[')']]))
      (TypeExpr.tupleText texts) := by
  have hopen : isWordToken ['('] = false := by decide
  have hclose : isWordToken [')'] = false := by decide
  have hcomma : isWordToken [','] = false := by decide
  have hend := LaidOut.singleton [')']
  have hj := LaidOut.intercalate h
  cases h with
  | nil => exact hend.cons_mark hopen
  | cons ht hrest =>
    cases hrest with
    | nil =>
      have hinner := (ht.append_mark hcomma hend).cons_mark hopen
      show LaidOut (['('] :: ((_ ++ [[',']]) ++ [[')']])) _
      rw [TypeExpr.tupleText, List.append_assoc, List.append_assoc]
      exact hinner
    | cons ht' hrest =>
      have hinner := (hj.append hend (by decide)).cons_mark hopen
      show LaidOut (['('] :: ((_ ++ []) ++ [[')']])) _
      rw [TypeExpr.tupleText, List.append_nil, List.append_assoc]
      · exact hinner
      · exact nofun
      · exact nofun

theorem laidOut_reference {tokens : List Text} {s : Text} (h : LaidOut tokens s)
    {lifetime : Option Text} (hlifetime : ∀ name ∈ lifetime, Text.isIdent name = true)
    (isMutable : Bool) :
    LaidOut (['&'] :: (lifetimeTokens lifetime ++ (mutTokens isMutable ++ tokens)))
      ("& ".toList ++ TypeExpr.lifetimeText lifetime ++ TypeExpr.mutText isMutable ++ s) := by
  have hmut : LaidOut (mutTokens isMutable ++ tokens) (TypeExpr.mutText isMutable ++ s) := by
    cases isMutable with
    | false => exact h
    | true => exact h.cons_space
  have hmarks : LaidOut (lifetimeTokens lifetime ++ (mutTokens isMutable ++ tokens))
      (TypeExpr.lifetimeText lifetime ++ (TypeExpr.mutText isMutable ++ s)) := by
    cases lifetime with
    | none => exact hmut
    | some name =>
      have hne : name ≠ [] := by
        rintro rfl
        exact absurd (hlifetime [] rfl) (by decide)
      rw [TypeExpr.lifetimeText_of_ne_nil hne, List.append_assoc]
      exact hmut.cons_space
  rw [List.append_assoc, List.append_assoc]
  exact hmarks.cons_space

/-- A list of generic arguments without lifetimes and without a comma at its end. -/
theorem Spells.path_of_types (n : PathName) {items : List (TypeExpr × List Text)}
    (h : ∀ item ∈ items, Spells item.1 item.2) :
    Spells (.path n.text (items.map Prod.fst) none)
      (n.tokens ++ ['<'] :: (listTokens (items.map Prod.snd) false ++ [['>']])) := by
  have hexprs : (items.map fun item => GenericItem.type item.1 item.2).filterMap GenericItem.expr?
      = items.map Prod.fst := by
    rw [List.filterMap_map]
    exact congrFun List.filterMap_eq_map items
  have htokens : (items.map fun item => GenericItem.type item.1 item.2).map GenericItem.tokens
      = items.map Prod.snd := by
    rw [List.map_map]
    rfl
  rw [← hexprs, ← htokens]
  refine .path n _ false (fun _ => rfl) (fun e tokens hm => ?_) fun name hm => ?_
  · obtain ⟨item, hi, he⟩ := List.mem_map.1 hm
    cases he
    exact h item hi
  · obtain ⟨item, _, he⟩ := List.mem_map.1 hm
    cases he

/-- The printed form of an expression lays out one of its spellings. -/
theorem Plain.exists_spells {e : TypeExpr} (he : Plain e) :
    ∃ tokens, Spells e tokens ∧ LaidOut tokens e.print := by
  induction he with
  | path n args _ _ ih =>
    obtain ⟨items, rfl, hitems⟩ := exists_items ih
    have hname := LaidOut.tokens_text n
    cases items with
    | nil =>
      refine ⟨n.tokens, .name n, ?_⟩
      show LaidOut n.tokens (n.text ++ [])
      rwa [List.append_nil]
    | cons item items =>
      have hargs := laidOut_argsText (forall₂_laidOut fun item hi => (hitems item hi).2)
        (List.cons_ne_nil _ _)
      refine ⟨_, Spells.path_of_types n fun item hi => (hitems item hi).1, ?_⟩
      refine hname.append hargs fun next hm => ?_
      cases hm
      decide
  | reference e isMutable lifetime hlifetime _ ih =>
    obtain ⟨tokens, hs, hl⟩ := ih
    exact ⟨_, .reference e isMutable lifetime tokens hs, laidOut_reference hl hlifetime isMutable⟩
  | tuple elements _ ih =>
    obtain ⟨items, rfl, hitems⟩ := exists_items ih
    refine ⟨_, .tuple items ((items.map Prod.snd).length == 1) ?_ ?_
      fun item hi => (hitems item hi).1,
      laidOut_tupleText (forall₂_laidOut fun item hi => (hitems item hi).2)⟩
    · rintro rfl
      rfl
    · intro hone
      rw [List.length_map, hone]
      rfl
  | const text _ => exact ⟨[text], .const text, LaidOut.singleton text⟩

/-- An expression is read from every text that spells it, whatever the text looks like between its
tokens; the printed form is such a text. -/
theorem parse_of_spells {e : TypeExpr} (he : Plain e) :
    (∀ tokens s, Spells e tokens → LaidOut tokens s → parse s = .ok e) ∧
      ∃ tokens, Spells e tokens ∧ LaidOut tokens e.print := by
  refine ⟨fun tokens s ht hs => ?_, he.exists_spells⟩
  exact parse_eq_ok_iff.2 ((ht.readsAs he).parseType_eq s hs)

/-- A lifetime among the arguments, commas at the ends of both lists, and a tab. -/
theorem parse_of_spells_compact :
    let five := TypeExpr.verbatim .const "5".toList
    let e := TypeExpr.path "a::V".toList [.reference (.tuple [five]) true (some "x".toList)] none
    let tokens := ["a", "::", "V", "<", "'l", ",", "&", "'x", "mut", "(", "5", ",", ")", ",",
      ">"].map String.toList
    let s := "a ::V<'l,&'x mut (\t5,),>".toList
    Plain e ∧ Spells e tokens ∧ LaidOut tokens s ∧ parse s = .ok e := by
  intro five e tokens s
  let n : PathName := ⟨false, "a".toList, ["V".toList], by decide⟩
  let referent := TypeExpr.tuple [five]
  let reference := TypeExpr.reference referent true (some "x".toList)
  let inner := ["&", "'x", "mut", "(", "5", ",", ")"].map String.toList
  have hfive : Plain five := .const _ ⟨[], '5', [], [], rfl, .inl rfl, rfl, nofun, .inl rfl⟩
  have htuple : Plain referent := .tuple _ (List.forall_mem_singleton.2 hfive)
  have he : Plain e := by
    refine .path n [reference] ⟨by decide, by decide⟩ (List.forall_mem_singleton.2 ?_)
    exact .reference _ true _ (fun name hm => Option.some.inj hm ▸ rfl) htuple
  have hinner : Spells reference inner :=
    .reference _ true (some "x".toList) _ (.tuple [(five, ["5".toList])] true nofun (fun _ => rfl)
      (List.forall_mem_singleton.2 (.const "5".toList)))
  have hspells : Spells e tokens := by
    refine .path n [.lifetime "l".toList, .type reference inner] true nofun ?_ ?_
    · intro e tokens hm
      rcases List.mem_cons.1 hm with h | h
      · cases h
      · cases List.mem_singleton.1 h
        exact hinner
    · intro name hm
      rcases List.mem_cons.1 hm with h | h
      · cases h
        rfl
      · cases List.mem_singleton.1 h
  have hlaid : LaidOut tokens s := by
    have htab : Text.Blank ['\t'] := by decide
    have hclose : LaidOut [[','], ['>']] ",>".toList := (LaidOut.singleton _).cons_mark rfl
    have hround : LaidOut [[','], [')'], [','], ['>']] ",),>".toList :=
      (hclose.cons_mark rfl).cons_mark rfl
    have hdigit : LaidOut ["5".toList, [','], [')'], [','], ['>']] "\t5,),>".toList :=
      ((LaidOut.singleton "5".toList).append hround (by decide)).blank_append htab
    have hand : LaidOut ([','] :: (inner ++ [[','], ['>']])) ",&'x mut (\t5,),>".toList :=
      (hdigit.cons_mark rfl).cons_space.cons_space.cons_mark rfl |>.cons_mark rfl
    have hangle : LaidOut (['<'] :: "'l".toList :: [','] :: (inner ++ [[','], ['>']]))
        "<'l,&'x mut (\t5,),>".toList :=
      ((LaidOut.singleton "'l".toList).append hand (by decide)).cons_mark rfl
    have hlast : LaidOut ("V".toList :: ['<'] :: "'l".toList :: [','] :: (inner ++ [[','], ['>']]))
        "V<'l,&'x mut (\t5,),>".toList :=
      (LaidOut.singleton "V".toList).append hangle (by decide)
    exact (hlast.cons_mark rfl).cons_space
  exact ⟨he, hspells, hlaid, (parse_of_spells he).1 tokens s hspells hlaid⟩

end TypeBridge
