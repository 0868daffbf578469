import TypeBridge.Proofs.Nesting.Commas
import TypeBridge.Proofs.TypeExpr.Layout
import TypeBridge.Proofs.TypeExpr.Name
import TypeBridge.TypeExpr.Printed

/-!
The spellings of a type expression as rows of tokens, and the expressions that have them: paths,
references, tuples and integer literals, to any depth. A list can end with a comma, and a list of
generic arguments can hold lifetimes, which are no part of the expression. Main statement: every
spelling nests properly and has no comma outside its brackets.
-/

namespace TypeBridge

/-! ### Expressions -/

/-- Whether a text is an integer literal: perhaps a minus, a digit, then digits and underscores, and
perhaps a suffix. -/
def IntegerLiteral (s : Text) : Prop :=
  ∃ sign digit digits suffix, s = sign ++ digit :: (digits ++ suffix) ∧
    (sign = [] ∨ sign = ['-']) ∧ Char.isDigit digit = true ∧
    (∀ c ∈ digits, Char.isDigit c = true ∨ c = '_') ∧
    (suffix = [] ∨ ∃ kind ∈ ['i', 'u'], ∃ size ∈ ["8", "16", "32", "64", "128", "size"],
      suffix = kind :: size.toList)

/-- The words that begin another type than a path, or mark a reference. -/
def keywords : List Text := ["fn", "unsafe", "extern", "dyn", "impl", "mut"].map String.toList

/-- Whether a path can be told from every other type by its first segment. -/
def PathName.Free (n : PathName) : Prop :=
  n.text ≠ ['_'] ∧ (n.isRooted = false → n.first ∉ keywords)

/-- The expressions built from paths, references, tuples and integer literals. -/
inductive Plain : TypeExpr → Prop
  | path (n : PathName) (args : List TypeExpr) (hn : n.Free) (hargs : ∀ e ∈ args, Plain e) :
    Plain (.path n.text args none)
  | reference (e : TypeExpr) (isMutable : Bool) (lifetime : Option Text)
    (hlifetime : ∀ name ∈ lifetime, Text.isIdent name = true) (he : Plain e) :
    Plain (.reference e isMutable lifetime)
  | tuple (elements : List TypeExpr) (h : ∀ e ∈ elements, Plain e) : Plain (.tuple elements)
  | const (text : Text) (h : IntegerLiteral text) : Plain (.verbatim .const text)

/-! ### Tokens -/

/-- The tokens of a path. -/
def PathName.tokens (n : PathName) : List Text :=
  (if n.isRooted then [[':', ':']] else []) ++
    n.first :: n.rest.flatMap fun segment => [[':', ':'], segment]

/-- The token of a lifetime. -/
def lifetimeTokens : Option Text → List Text
  | none => []
  | some name => ['\'' :: name]

/-- The token that marks a mutable reference. -/
def mutTokens (isMutable : Bool) : List Text := if isMutable then ["mut".toList] else []

/-- Rows of tokens with a comma between neighbours. -/
def separatedTokens : List (List Text) → List Text
  | [] => []
  | [tokens] => tokens
  | tokens :: next :: rest => tokens ++ [','] :: separatedTokens (next :: rest)

/-- The tokens of a list; `comma` says whether a comma stands behind its last item. -/
def listTokens (items : List (List Text)) (comma : Bool) : List Text :=
  separatedTokens items ++ if comma then [[',']] else []

/-- An item in a list of generic arguments: a type with its tokens, or a lifetime. -/
inductive GenericItem where
  | type (e : TypeExpr) (tokens : List Text)
  | lifetime (name : Text)

namespace GenericItem

/-- The tokens of an item. -/
def tokens : GenericItem → List Text
  | type _ tokens => tokens
  | lifetime name => ['\'' :: name]

/-- The argument that an item stands for. -/
def expr? : GenericItem → Option TypeExpr
  | type e _ => some e
  | lifetime _ => none

end GenericItem

/-- The rows of tokens that spell an expression. -/
inductive Spells : TypeExpr → List Text → Prop
  | name (n : PathName) : Spells (.path n.text [] none) n.tokens
  | path (n : PathName) (items : List GenericItem) (comma : Bool)
    (hcomma : items = [] → comma = false)
    (htypes : ∀ e tokens, GenericItem.type e tokens ∈ items → Spells e tokens)
    (hlifetimes : ∀ name, GenericItem.lifetime name ∈ items → Text.isIdent name = true) :
    Spells (.path n.text (items.filterMap GenericItem.expr?) none)
      (n.tokens ++ ['<'] :: (listTokens (items.map GenericItem.tokens) comma ++ [['>']]))
  | reference (e : TypeExpr) (isMutable : Bool) (lifetime : Option Text) (tokens : List Text)
    (he : Spells e tokens) :
    Spells (.reference e isMutable lifetime)
      (['&'] :: (lifetimeTokens lifetime ++ (mutTokens isMutable ++ tokens)))
  | tuple (items : List (TypeExpr × List Text)) (comma : Bool)
    (hempty : items = [] → comma = false) (hone : items.length = 1 → comma = true)
    (hitems : ∀ item ∈ items, Spells item.1 item.2) :
    Spells (.tuple (items.map Prod.fst))
      (['('] :: (listTokens (items.map Prod.snd) comma ++ [[')']]))
  | const (text : Text) : Spells (.verbatim .const text) [text]

/-! ### Nesting -/

/-- Whether a row of tokens leaves all brackets as it finds them and separates nothing. -/
structure Nests (tokens : List Text) : Prop where
  isToken : ∀ token ∈ tokens, IsToken token
  stack : ∀ stack, scanTokens stackStep stack tokens = some stack
  depth : ∀ depth : Int, 0 ≤ depth → scanTokens commaStep depth tokens = some depth

namespace Nests

theorem nil : Nests [] := ⟨nofun, fun _ => rfl, fun _ _ => rfl⟩

theorem append {tokens others : List Text} (h : Nests tokens) (h' : Nests others) :
    Nests (tokens ++ others) where
  isToken := List.forall_mem_append.2 ⟨h.isToken, h'.isToken⟩
  stack stack := by
    rw [scanTokens_append, h.stack, Option.bind_some, h'.stack]
  depth depth hd := by
    rw [scanTokens_append, h.depth depth hd, Option.bind_some, h'.depth depth hd]

theorem of_quiet {token : Text} (ht : IsToken token) (hq : Quiet token) : Nests [token] where
  isToken := List.forall_mem_singleton.2 ht
  stack stack := by
    rw [scanTokens, scan_quiet passes_stackStep none stack hq]
    rfl
  depth depth _ := by
    rw [scanTokens, scan_quiet passes_commaStep none depth hq]
    rfl

theorem cons {token : Text} {tokens : List Text} (h : Nests [token]) (h' : Nests tokens) :
    Nests (token :: tokens) := h.append h'

theorem of_forall : ∀ {tokens : List Text}, (∀ token ∈ tokens, IsToken token ∧ Quiet token) →
    Nests tokens
  | [], _ => nil
  | token :: tokens, h => by
    obtain ⟨ht, hr⟩ := List.forall_mem_cons.1 h
    exact (of_quiet ht.1 ht.2).cons (of_forall hr)

end Nests

/-! ### The tokens of names, lifetimes and literals -/

theorem char_of_isNameChar {c : Char} (h : Text.isIdentChar c = true ∨ c = ':' ∨ c = '\'') :
    Text.isBlank c = false ∧ c ≠ '=' ∧ c ≠ '-' ∧ c ∉ [',', '<', '(', '[', '>', ')', ']'] := by
  rcases h with h | rfl | rfl
  · have hmarks : ∀ d ∈ [',', '<', '(', '[', '>', ')', ']'], Text.isIdentChar d = false := by decide
    refine ⟨Text.isBlank_eq_false_of_isIdentChar h, Text.ne_of_isIdentChar h (by decide),
      Text.ne_of_isIdentChar h (by decide), fun hm => ?_⟩
    exact Text.ne_of_isIdentChar h (hmarks c hm) rfl
  · decide
  · decide

theorem isToken_of_chars {token : Text} (hne : token ≠ [])
    (h : ∀ c ∈ token, Text.isIdentChar c = true ∨ c = ':' ∨ c = '\'') :
    IsToken token ∧ Quiet token := by
  have hchar := fun c hc => char_of_isNameChar (h c hc)
  refine ⟨⟨hne, fun c hc => (hchar c hc).1, fun hm => (hchar _ hm).2.1 rfl, fun hl => ?_⟩,
    fun c hc => (hchar c hc).2.2.2⟩
  exact (hchar _ (List.mem_of_getLast? hl)).2.2.1 rfl

theorem isToken_ident {name : Text} (h : Text.isIdent name = true) : IsToken name ∧ Quiet name :=
  isToken_of_chars (Text.isIdent_ne_nil h) fun c hc =>
    .inl (Text.isIdentChar_of_mem_isIdent h c hc)

theorem isToken_lifetime {name : Text} (h : Text.isIdent name = true) :
    IsToken ('\'' :: name) ∧ Quiet ('\'' :: name) := by
  refine isToken_of_chars (List.cons_ne_nil _ _) (List.forall_mem_cons.2 ⟨.inr (.inr rfl), ?_⟩)
  exact fun c hc => .inl (Text.isIdentChar_of_mem_isIdent h c hc)

theorem isToken_of_mem_tokens {n : PathName} :
    ∀ token ∈ n.tokens, IsToken token ∧ Quiet token := by
  have hcolons : IsToken [':', ':'] ∧ Quiet [':', ':'] := isToken_of_chars (by decide) (by decide)
  have hident := fun segment hm => isToken_ident (n.isIdent_of_mem segment hm)
  obtain ⟨hfirst, hrest⟩ := List.forall_mem_cons.1 hident
  refine List.forall_mem_append.2 ⟨?_, List.forall_mem_cons.2 ⟨hfirst, ?_⟩⟩
  · split
    · exact List.forall_mem_singleton.2 hcolons
    · exact nofun
  · intro token hm
    obtain ⟨segment, hs, ht⟩ := List.mem_flatMap.1 hm
    rcases List.mem_cons.1 ht with rfl | ht
    · exact hcolons
    · rw [List.mem_singleton.1 ht]
      exact hrest segment hs

/-- A literal is a digit and characters of identifiers, perhaps with a minus in front. -/
theorem IntegerLiteral.exists_body {s : Text} (h : IntegerLiteral s) :
    ∃ sign digit body, s = sign ++ digit :: body ∧ (sign = [] ∨ sign = ['-']) ∧
      Char.isDigit digit = true ∧ ∀ c ∈ digit :: body, Text.isIdentChar c = true := by
  obtain ⟨sign, digit, digits, suffix, rfl, hsign, hdigit, hdigits, hsuffix⟩ := h
  have hisDigit : ∀ {c : Char}, c.isDigit = true → Text.isIdentChar c = true := by
    intro c hc
    rw [Text.isIdentChar, Char.isAlphanum, hc, Bool.or_true, Bool.true_or]
  refine ⟨sign, digit, digits ++ suffix, rfl, hsign, hdigit,
    List.forall_mem_cons.2 ⟨hisDigit hdigit, List.forall_mem_append.2 ⟨?_, ?_⟩⟩⟩
  · intro c hc
    rcases hdigits c hc with hd | rfl
    · exact hisDigit hd
    · decide
  · rcases hsuffix with rfl | ⟨kind, hk, size, hz, rfl⟩
    · intro c hc
      cases hc
    · revert kind size
      decide

theorem IntegerLiteral.isToken {s : Text} (h : IntegerLiteral s) : IsToken s ∧ Quiet s := by
  obtain ⟨sign, digit, body, rfl, hsign, _, hbody⟩ := h.exists_body
  obtain ⟨ht, hq⟩ := isToken_of_chars (List.cons_ne_nil digit body) fun c hc => .inl (hbody c hc)
  rcases hsign with rfl | rfl
  · exact ⟨ht, hq⟩
  · refine ⟨⟨List.cons_ne_nil _ _, List.forall_mem_cons.2 ⟨by decide, ht.not_blank⟩, ?_, ?_⟩,
      List.forall_mem_cons.2 ⟨by decide, hq⟩⟩
    · rw [List.singleton_append, List.mem_cons, not_or]
      exact ⟨by decide, ht.not_binding⟩
    · rw [List.getLast?_append_of_ne_nil _ (List.cons_ne_nil _ _)]
      exact ht.not_arrow

/-! ### Lists in brackets -/

theorem isToken_mark {c : Char} (h : c ∈ [',', '<', '(', '[', '>', ')', ']', '&']) :
    IsToken [c] := by
  have hc : c ≠ '-' ∧ c ≠ '=' ∧ Text.isBlank c = false := by
    revert c
    decide
  refine ⟨List.cons_ne_nil _ _, List.forall_mem_singleton.2 hc.2.2, ?_, ?_⟩
  · exact fun hm => hc.2.1 (List.mem_singleton.1 hm).symm
  · exact fun hl => hc.1 (Option.some.inj hl)

theorem isToken_listTokens {items : List (List Text)} (comma : Bool)
    (h : ∀ tokens ∈ items, Nests tokens) : ∀ token ∈ listTokens items comma, IsToken token := by
  have hcomma : IsToken [','] := isToken_mark (by decide)
  have hsep : ∀ {items : List (List Text)}, (∀ tokens ∈ items, Nests tokens) →
      ∀ token ∈ separatedTokens items, IsToken token := by
    intro items
    induction items with
    | nil => exact fun _ => nofun
    | cons tokens rest ih =>
      intro h
      obtain ⟨ht, hr⟩ := List.forall_mem_cons.1 h
      cases rest with
      | nil => exact ht.isToken
      | cons next rest =>
        exact List.forall_mem_append.2
          ⟨ht.isToken, List.forall_mem_cons.2 ⟨hcomma, ih hr⟩⟩
  refine List.forall_mem_append.2 ⟨hsep h, ?_⟩
  cases comma with
  | true => exact List.forall_mem_singleton.2 hcomma
  | false => exact nofun

/-- Below an open bracket, a list of rows that nest passes through any scan that the rows and the
commas between them pass through. -/
theorem scanTokens_listTokens {σ : Type} {step : Mark → Char → σ → Option σ} {state : σ}
    (hcomma : scan step none state [','] = some state) (comma : Bool) :
    ∀ {items : List (List Text)}, (∀ tokens ∈ items, scanTokens step state tokens = some state) →
      scanTokens step state (listTokens items comma) = some state
  | [], _ => by
    cases comma with
    | true =>
      show (scan step none state [',']).bind _ = _
      rw [hcomma]
      rfl
    | false => rfl
  | [tokens], h => by
    have ih : scanTokens step state (listTokens [] comma) = some state :=
      scanTokens_listTokens hcomma comma nofun
    have ht := h tokens List.mem_cons_self
    rw [listTokens, scanTokens_append, separatedTokens, ht, Option.bind_some]
    exact ih
  | tokens :: next :: rest, h => by
    obtain ⟨ht, hr⟩ := List.forall_mem_cons.1 h
    have ih := scanTokens_listTokens hcomma comma hr
    rw [listTokens, separatedTokens, List.append_assoc, scanTokens_append, ht, Option.bind_some,
      List.cons_append, scanTokens, hcomma, Option.bind_some]
    exact ih

/-- A list in brackets nests if its items do. -/
theorem nests_brackets (bracket : Bracket) {items : List (List Text)} (comma : Bool)
    (h : ∀ tokens ∈ items, Nests tokens) :
    Nests ([bracket.opener] :: (listTokens items comma ++ [[bracket.closer]])) where
  isToken := by
    refine List.forall_mem_cons.2 ⟨isToken_mark (by cases bracket <;> decide), ?_⟩
    refine List.forall_mem_append.2 ⟨isToken_listTokens comma h, ?_⟩
    exact List.forall_mem_singleton.2 (isToken_mark (by cases bracket <;> decide))
  stack stack := by
    have hopen : scan stackStep none stack [bracket.opener] = some (bracket :: stack) := by
      cases bracket <;> rfl
    have hclose : scan stackStep none (bracket :: stack) [bracket.closer] = some stack := by
      cases bracket <;> rfl
    have hcomma : scan stackStep none (bracket :: stack) [','] = some (bracket :: stack) := rfl
    have hlist := scanTokens_listTokens hcomma comma fun tokens hm => (h tokens hm).stack _
    rw [scanTokens, hopen, Option.bind_some, scanTokens_append, hlist, Option.bind_some, scanTokens,
      hclose]
    rfl
  depth depth hd := by
    have hopen : scan commaStep none depth [bracket.opener] = some (depth + 1) := by
      rw [scan_singleton, markOf_opener, commaStep_of_not fun e => by cases bracket <;> cases e.1]
      rfl
    have hclose : scan commaStep none (depth + 1) [bracket.closer] = some depth := by
      rw [scan_singleton, markOf_closer none bracket (by cases bracket <;> rfl),
        commaStep_of_not fun e => by omega, Mark.delta]
      congr 1
      omega
    have hcomma : scan commaStep none (depth + 1) [','] = some (depth + 1) := by
      rw [scan_singleton, markOf_comma, commaStep_of_not fun e => by omega, Mark.delta,
        Int.add_zero]
    have hlist := scanTokens_listTokens hcomma comma
      fun tokens hm => (h tokens hm).depth _ (by omega)
    rw [scanTokens, hopen, Option.bind_some, scanTokens_append, hlist, Option.bind_some, scanTokens,
      hclose]
    rfl

/-! ### Spellings -/

theorem Plain.path_inv {name : Text} {args : List TypeExpr} {selfType : Option Text}
    (h : Plain (.path name args selfType)) :
    ∃ n : PathName, name = n.text ∧ n.Free ∧ ∀ e ∈ args, Plain e := by
  cases h with
  | path n args hn hargs => exact ⟨n, rfl, hn, hargs⟩

/-- Whether a token can begin a type: it is no lifetime, and if it is a word, no keyword. -/
def LeadsType (token : Text) : Prop :=
  token.head? ≠ some '\'' ∧
    (isWordToken token = true → (∀ c ∈ token, Text.isWord c = true) ∧ token ∉ keywords)

theorem leadsType_mark {c : Char} (h : c ∈ ['&', '(']) : LeadsType [c] := by
  have hc : c ≠ '\'' ∧ isWordToken [c] = false := by
    revert c
    decide
  refine ⟨fun e => hc.1 (Option.some.inj e), fun hw => ?_⟩
  rw [hc.2] at hw
  exact absurd hw (by decide)

theorem PathName.exists_tokens_eq_cons {n : PathName} (h : n.Free) :
    ∃ first rest, n.tokens = first :: rest ∧ LeadsType first := by
  unfold PathName.tokens
  cases hroot : n.isRooted with
  | true =>
    refine ⟨[':', ':'], _, rfl, by decide, fun hw => ?_⟩
    exact absurd hw (by decide)
  | false =>
    have hident := n.isIdent_of_mem n.first List.mem_cons_self
    have hchars := Text.isIdentChar_of_mem_isIdent hident
    refine ⟨n.first, _, rfl, fun hq => ?_, fun _ => ⟨?_, h.2 hroot⟩⟩
    · exact absurd (hchars _ (List.mem_of_mem_head? hq)) (by decide)
    · exact fun c hc => Text.isWord_of_isIdentChar (hchars c hc)

theorem IntegerLiteral.leadsType {s : Text} (h : IntegerLiteral s) : LeadsType s := by
  obtain ⟨sign, digit, body, rfl, hsign, hdigit, hbody⟩ := h.exists_body
  have hkeyword : ∀ word ∈ keywords, word.head?.any Char.isDigit = false := by decide
  rcases hsign with rfl | rfl
  · refine ⟨fun hq => ?_, fun _ => ⟨fun c hc => Text.isWord_of_isIdentChar (hbody c hc), ?_⟩⟩
    · rw [Option.some.inj hq] at hdigit
      exact absurd hdigit (by decide)
    · intro hm
      have hd : digit.isDigit = false := hkeyword _ hm
      rw [hdigit] at hd
      exact Bool.false_ne_true hd.symm
  · have hminus : ('-' == '\'' || Text.isWord '-') = false := by decide
    exact ⟨by simp, fun hw => absurd (hw.symm.trans hminus) (by decide)⟩

theorem nests_lifetimeTokens {lifetime : Option Text}
    (h : ∀ name ∈ lifetime, Text.isIdent name = true) : Nests (lifetimeTokens lifetime) := by
  cases lifetime with
  | none => exact Nests.nil
  | some name => exact Nests.of_forall (List.forall_mem_singleton.2 (isToken_lifetime (h name rfl)))

theorem nests_mutTokens (isMutable : Bool) : Nests (mutTokens isMutable) := by
  cases isMutable with
  | false => exact Nests.nil
  | true =>
    have hmut : Text.isIdent "mut".toList = true := by decide
    exact Nests.of_forall (List.forall_mem_singleton.2 (isToken_ident hmut))

/-- Every spelling of an expression nests, and its first token can begin a type. -/
theorem Spells.nests {e : TypeExpr} {tokens : List Text} (h : Spells e tokens) (he : Plain e) :
    Nests tokens ∧ ∃ first rest, tokens = first :: rest ∧ LeadsType first := by
  induction h with
  | name n =>
    obtain ⟨n', hn, hfree, _⟩ := he.path_inv
    rw [PathName.text_injective hn]
    exact ⟨Nests.of_forall isToken_of_mem_tokens, PathName.exists_tokens_eq_cons hfree⟩
  | path n items comma hcomma htypes hlifetimes ih =>
    obtain ⟨n', hn, hfree, hargs⟩ := he.path_inv
    rw [PathName.text_injective hn]
    have hitems : ∀ tokens ∈ items.map GenericItem.tokens, Nests tokens := by
      intro tokens hm
      obtain ⟨item, hi, rfl⟩ := List.mem_map.1 hm
      cases item with
      | type e tokens =>
        exact (ih e tokens hi (hargs e (List.mem_filterMap.2 ⟨_, hi, rfl⟩))).1
      | lifetime name =>
        exact Nests.of_forall (List.forall_mem_singleton.2 (isToken_lifetime (hlifetimes name hi)))
    refine ⟨(Nests.of_forall isToken_of_mem_tokens).append (nests_brackets .angle comma hitems), ?_⟩
    obtain ⟨first, rest, hfirst, hleads⟩ := PathName.exists_tokens_eq_cons hfree
    exact ⟨first, _, by rw [hfirst, List.cons_append], hleads⟩
  | reference e isMutable lifetime tokens _ ih =>
    cases he with
    | reference _ _ _ hlifetime he =>
      have hand : Nests [['&']] := Nests.of_quiet (isToken_mark (by decide)) (by decide)
      exact ⟨hand.cons ((nests_lifetimeTokens hlifetime).append
        ((nests_mutTokens isMutable).append (ih he).1)), _, _, rfl, leadsType_mark (by decide)⟩
  | tuple items comma _ _ _ ih =>
    cases he with
    | tuple _ h =>
      refine ⟨nests_brackets .round comma fun tokens hm => ?_, _, _, rfl,
        leadsType_mark (by decide)⟩
      obtain ⟨item, hi, rfl⟩ := List.mem_map.1 hm
      exact (ih item hi (h item.1 (List.mem_map_of_mem hi))).1
  | const text =>
    cases he with
    | const _ h =>
      exact ⟨Nests.of_forall (List.forall_mem_singleton.2 h.isToken), _, _, rfl, h.leadsType⟩

end TypeBridge
