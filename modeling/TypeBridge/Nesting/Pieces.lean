import TypeBridge.Nesting.Bracket
import TypeBridge.Text.Blank

/-!
The pieces of a list in type text: what stands between the commas outside all brackets. The scan
counts the three kinds of brackets together, and a closer without an opener takes the depth below
zero, where no comma separates. Main statement: the pieces and one comma for each have together one
character more than the text, so no piece is longer than the text.
-/

namespace TypeBridge

/-- The pieces between the commas at depth zero, of a scan that stands at `depth`. -/
def piecesFrom : Option Char → Int → Text → List Text
  | _, _, [] => [[]]
  | before, depth, c :: s =>
    if c = ',' ∧ depth = 0 then [] :: piecesFrom (some c) 0 s
    else (piecesFrom (some c) (depth + (markOf before c).delta) s).modifyHead (c :: ·)

/-- The pieces without the last one if it is empty. -/
def dropEmptyEnd : List Text → List Text
  | [] => []
  | [piece] => if piece.isEmpty then [] else [piece]
  | piece :: next :: rest => piece :: dropEmptyEnd (next :: rest)

/-- The pieces of a text between the commas outside its brackets. A comma at the very end begins no
piece. -/
def splitPieces (s : Text) : List Text := dropEmptyEnd (piecesFrom none 0 s)

/-- The part of a text before the first closer that has no opener, of a scan with `depth` open
brackets. -/
def balancedFrom : Option Char → Nat → Text → Text
  | _, _, [] => []
  | before, depth, c :: s =>
    match markOf before c, depth with
    | .opens _, depth => c :: balancedFrom (some c) (depth + 1) s
    | .closes _, 0 => []
    | .closes _, depth + 1 => c :: balancedFrom (some c) depth s
    | .neutral, depth => c :: balancedFrom (some c) depth s

/-- The part of a text before the first closer that has no opener in it. -/
def balancedStart (s : Text) : Text := balancedFrom none 0 s

/-- The arguments written in a text, each stripped: the pieces of its balanced start that are not
blank. -/
def splitArguments (s : Text) : List Text :=
  ((splitPieces (balancedStart s)).map Text.strip).filter fun piece => !piece.isEmpty

theorem piecesFrom_ne_nil : ∀ (before : Option Char) (depth : Int) (s : Text),
    piecesFrom before depth s ≠ []
  | _, _, [] => List.cons_ne_nil [] []
  | before, depth, c :: s => by
    unfold piecesFrom
    split
    · exact List.cons_ne_nil [] _
    · exact fun h => piecesFrom_ne_nil _ _ s (List.modifyHead_eq_nil_iff.1 h)

theorem flatten_modifyHead_cons (c : Char) {pieces : List Text} (h : pieces ≠ []) :
    (pieces.modifyHead (c :: ·)).flatten = c :: pieces.flatten := by
  cases pieces with
  | nil => exact absurd rfl h
  | cons piece pieces => rfl

theorem length_flatten_piecesFrom : ∀ (before : Option Char) (depth : Int) (s : Text),
    (piecesFrom before depth s).flatten.length + (piecesFrom before depth s).length = s.length + 1
  | _, _, [] => rfl
  | before, depth, c :: s => by
    unfold piecesFrom
    split
    · have ih := length_flatten_piecesFrom (some c) 0 s
      rw [List.flatten_cons, List.nil_append, List.length_cons, List.length_cons]
      omega
    · have ih := length_flatten_piecesFrom (some c) (depth + (markOf before c).delta) s
      rw [flatten_modifyHead_cons c (piecesFrom_ne_nil _ _ s), List.length_modifyHead,
        List.length_cons, List.length_cons]
      omega

theorem dropEmptyEnd_isPrefix : ∀ pieces : List Text, dropEmptyEnd pieces <+: pieces
  | [] => List.nil_prefix
  | [piece] => by
    unfold dropEmptyEnd
    split
    · exact List.nil_prefix
    · exact List.prefix_refl [piece]
  | piece :: next :: rest =>
    List.cons_prefix_cons.2 ⟨rfl, dropEmptyEnd_isPrefix (next :: rest)⟩

theorem mem_of_mem_dropEmptyEnd {pieces : List Text} {piece : Text}
    (h : piece ∈ dropEmptyEnd pieces) : piece ∈ pieces :=
  (dropEmptyEnd_isPrefix pieces).subset h

theorem length_flatten_splitPieces_le (s : Text) :
    (splitPieces s).flatten.length + (splitPieces s).length ≤ s.length + 1 := by
  have hprefix := dropEmptyEnd_isPrefix (piecesFrom none 0 s)
  have hall := length_flatten_piecesFrom none 0 s
  have hflatten := Text.length_flatten_le_of_sublist hprefix.sublist
  have hlength := hprefix.length_le
  rw [splitPieces]
  omega

theorem length_le_of_mem_splitPieces {s piece : Text} (h : piece ∈ splitPieces s) :
    piece.length ≤ s.length := by
  have hall := length_flatten_splitPieces_le s
  have hpiece := (List.sublist_flatten_of_mem h).length_le
  have hsome := List.length_pos_of_mem h
  omega

theorem balancedFrom_isPrefix : ∀ (before : Option Char) (depth : Nat) (s : Text),
    balancedFrom before depth s <+: s
  | _, _, [] => List.nil_prefix
  | before, depth, c :: s => by
    unfold balancedFrom
    split
    · exact (List.cons_prefix_cons).2 ⟨rfl, balancedFrom_isPrefix _ _ s⟩
    · exact List.nil_prefix
    · exact (List.cons_prefix_cons).2 ⟨rfl, balancedFrom_isPrefix _ _ s⟩
    · exact (List.cons_prefix_cons).2 ⟨rfl, balancedFrom_isPrefix _ _ s⟩

theorem length_flatten_map_strip_le : ∀ pieces : List Text,
    (pieces.map Text.strip).flatten.length ≤ pieces.flatten.length
  | [] => Nat.le_refl 0
  | piece :: rest => by
    have ih := length_flatten_map_strip_le rest
    have hpiece := Text.length_strip_le piece
    rw [List.map_cons, List.flatten_cons, List.flatten_cons, List.length_append,
      List.length_append]
    omega

theorem length_flatten_splitArguments_le (s : Text) :
    (splitArguments s).flatten.length ≤ s.length := by
  have hkept : (splitArguments s).Sublist ((splitPieces (balancedStart s)).map Text.strip) :=
    List.filter_sublist
  have hflatten := Text.length_flatten_le_of_sublist hkept
  have hstrip := length_flatten_map_strip_le (splitPieces (balancedStart s))
  have hpieces := length_flatten_splitPieces_le (balancedStart s)
  have hstart : (balancedStart s).length ≤ s.length := (balancedFrom_isPrefix none 0 s).length_le
  cases hp : splitPieces (balancedStart s) with
  | nil =>
    rw [hp] at hflatten
    exact Nat.le_trans hflatten (Nat.zero_le _)
  | cons piece rest =>
    rw [hp] at hflatten hstrip hpieces
    rw [List.length_cons] at hpieces
    omega

theorem length_le_of_mem_splitArguments {s argument : Text} (h : argument ∈ splitArguments s) :
    argument.length ≤ s.length :=
  Nat.le_trans (List.sublist_flatten_of_mem h).length_le (length_flatten_splitArguments_le s)

end TypeBridge
