import TypeBridge.TypeExpr.Layer

/-!
Peeling shrinks. Main statement: every text inside a layer is shorter than the stripped text that
the layer was peeled off, whatever that text holds.
-/

namespace TypeBridge

namespace Text

theorem length_afterWord?_le {word s rest : Text} (h : afterWord? word s = some rest) :
    rest.length ≤ s.length := by
  have := length_isPrefixOf? (Option.filter_eq_some_iff.1 h).1
  omega

theorem length_cutIdent? {s ident rest : Text} (h : cutIdent? s = some (ident, rest)) :
    rest.length ≤ s.length := by
  rw [(cutIdent?_eq_some h).1, List.length_append]
  omega

end Text

theorem Bracket.length_enclosed? {bracket : Bracket} {s inside after : Text}
    (h : bracket.enclosed? s = some (inside, after)) :
    s.length = inside.length + after.length + 1 := by
  rw [Bracket.enclosed?_eq_some h, List.length_append, List.length_cons]
  omega

namespace Layer

/-- Every part of a layer is shorter than `n`. -/
def Below (n : Nat) (layer : Layer) : Prop := ∀ part ∈ layer.parts, part.length < n

theorem below_verbatim (n : Nat) (form : Form) (s : Text) : Below n (verbatim form s) := by
  simp [Below, parts]

theorem below_ofReferent {n : Nat} (lifetime : Option Text) {s : Text} (h : s.length < n) :
    Below n (ofReferent lifetime s) := by
  unfold ofReferent
  split
  · rename_i referent hw
    have := Text.length_afterWord?_le hw
    simp only [Below, parts, List.mem_singleton, forall_eq]
    omega
  · simpa [Below, parts] using h

theorem below_ofReference? {n : Nat} {rest : Text} {layer : Layer} (hn : rest.length < n)
    (h : ofReference? rest = .ok layer) : Below n layer := by
  have hs := Text.length_strip_le rest
  unfold ofReference? at h
  simp only at h
  split at h
  · cases h
    exact below_ofReferent none (by omega)
  · rename_i afterQuote hq
    have hq := Text.length_isPrefixOf? hq
    split at h
    · cases h
    · rename_i name after hi
      have hi := Text.length_cutIdent? hi
      have ha := Text.length_stripStart_le after
      split at h
      · cases h
      · cases h
        exact below_ofReferent _ (by omega)

theorem below_ofSquare? {n : Nat} {s rest : Text} {layer : Layer}
    (h : ofSquare? s rest = .ok layer) : Below n layer := by
  unfold ofSquare? at h
  split at h
  · cases h
  · cases h
    exact below_verbatim _ _ _

theorem below_ofContent {n : Nat} (s : Text) {content : Text} (hn : content.length < n) :
    Below n (ofContent s content) := by
  have hp : ∀ part ∈ (splitPieces content).filter fun piece => !Text.isBlankText piece,
      part.length < n := fun part h =>
    Nat.lt_of_le_of_lt (length_le_of_mem_splitPieces (List.mem_filter.1 h).1) hn
  unfold ofContent
  split
  · rename_i inner hi
    rw [hi] at hp
    split <;> exact hp
  · exact hp

theorem below_ofRound? {n : Nat} {s rest : Text} {layer : Layer} (hn : rest.length < n)
    (h : ofRound? s rest = .ok layer) : Below n layer := by
  unfold ofRound? at h
  split at h
  · cases h
  · rename_i inside after he
    have he := Bracket.length_enclosed? he
    have hi := Text.length_strip_le inside
    split at h
    · cases h
      exact below_ofContent s (by omega)
    · cases h

theorem length_le_of_mem_arguments {inside name part : Text} {selfType : Option Text}
    (h : part ∈ (path name ((splitPieces inside).filterMap argument?) selfType).parts) :
    part.length ≤ inside.length := by
  simp only [parts, List.mem_filterMap] at h
  obtain ⟨argument, ⟨piece, hp, ha⟩, ht⟩ := h
  have hp := length_le_of_mem_splitPieces hp
  have hs := Text.length_strip_le piece
  simp only [argument?] at ha
  split at ha
  · cases ha
  · split at ha <;> cases ha
    · cases ht
    · cases ht
      omega

theorem below_ofPath? {s : Text} {layer : Layer} (h : ofPath? s = .ok layer) :
    Below s.length layer := by
  unfold ofPath? at h
  split at h
  · split at h
    · cases h
      exact below_verbatim _ _ _
    · cases hn : normalizeName s with
      | error e => rw [hn] at h; cases h
      | ok name =>
        rw [hn] at h
        cases h
        simp [Below, parts]
  · rename_i before rest hc
    have hc := congrArg List.length (Text.cutAt?_eq_some '<' hc).1
    simp only [List.length_append, List.length_cons] at hc
    split at h
    · cases h
    · split at h
      · cases h
      · rename_i inside after he
        have he := Bracket.length_enclosed? he
        split at h <;> cases h
        · intro part hp
          have := length_le_of_mem_arguments hp
          omega
        · simp [Below, parts]

theorem below_ofQualified? {n : Nat} {s rest : Text} {layer : Layer} (hn : rest.length < n)
    (h : ofQualified? s rest = .ok layer) : Below n layer := by
  unfold ofQualified? at h
  split at h
  · cases h
  · rename_i inside after he
    have he := Bracket.length_enclosed? he
    split at h
    · cases h
    · rename_i tail ht
      have ht := Text.length_isPrefixOf? ht
      have ha := Text.length_strip_le after
      have hs := Text.length_strip_le tail
      split at h
      · cases h
      · rename_i name args selfType hp
        cases h
        intro part hpart
        have : part.length < (Text.strip tail).length := below_ofPath? hp part hpart
        omega
      · cases h

theorem below_ofWord? {s : Text} {layer : Layer} (h : ofWord? s = .ok layer) :
    Below s.length layer := by
  unfold ofWord? at h
  repeat' split at h
  all_goals first
    | exact below_ofPath? h
    | (cases h; exact below_verbatim _ _ _)

theorem below_ofStripped? {s : Text} {layer : Layer} (h : ofStripped? s = .ok layer) :
    Below s.length layer := by
  cases s with
  | nil => cases h
  | cons c rest =>
    have hn : rest.length < (c :: rest).length := by simp
    simp only [ofStripped?] at h
    split at h
    · exact below_ofReference? hn h
    split at h
    · cases h
      exact below_verbatim _ _ _
    split at h
    · exact below_ofSquare? h
    split at h
    · exact below_ofRound? hn h
    split at h
    · exact below_ofQualified? hn h
    · exact below_ofWord? h

theorem length_lt_of_mem_parts {s : Text} {layer : Layer} (h : peel? s = .ok layer) :
    ∀ part ∈ layer.parts, part.length < (Text.strip s).length :=
  below_ofStripped? h

end Layer

end TypeBridge
