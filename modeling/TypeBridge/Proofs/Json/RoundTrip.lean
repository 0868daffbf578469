import TypeBridge.Json.Decode
import TypeBridge.TypeDef

/-!
Encoded JSON text read back. Every character is read back from what it is written as, whatever
follows, so a string ends only at its own closing quote. Main statements: decoding the encoded form
of an object with string members gives its members; and the record of a type definition is one line
of ASCII that determines the definition.
-/

namespace TypeBridge

namespace Json

/-! ### Characters -/

theorem unit?_hex {n : Nat} (h : n < 0x10000) (rest : Text) :
    unit? (Text.hex 4 n ++ rest) = some n := by
  have hlength : 4 ≤ (Text.hex 4 n ++ rest).length := by
    rw [List.length_append, Text.length_hex]
    omega
  rw [unit?, if_pos hlength, List.take_left' (Text.length_hex 4 n), Text.ofHex?_hex,
    Nat.mod_eq_of_lt h]

theorem charOf?_toNat (c : Char) : charOf? c.toNat = some c := by
  have hvalid : c.toNat.isValidChar := c.valid
  rw [charOf?, dif_pos hvalid]
  rfl

theorem decodeChar?_unit {n : Nat} (h : n < 0x10000) (hhigh : ¬ (0xD800 ≤ n ∧ n ≤ 0xDBFF))
    (rest : Text) :
    decodeChar? (unitEscape n ++ rest) = (charOf? n).map fun c => (c, 6) := by
  simp only [unitEscape, List.cons_append, decodeChar?, ne_eq, not_true_eq_false, if_false,
    unit?_hex h, hhigh]

theorem decodeChar?_pair {high low : Nat} (hhigh : 0xD800 ≤ high ∧ high ≤ 0xDBFF)
    (hlow : 0xDC00 ≤ low ∧ low ≤ 0xDFFF) (rest : Text) :
    decodeChar? (unitEscape high ++ unitEscape low ++ rest)
      = (charOf? (0x10000 + (high - 0xD800) * 0x400 + (low - 0xDC00))).map fun c => (c, 12) := by
  have hfirst : high < 0x10000 := by omega
  have hsecond : low < 0x10000 := by omega
  have hdrop : ∀ t, (Text.hex 4 high ++ t).drop 4 = t := fun t =>
    List.drop_left' (Text.length_hex 4 high)
  have hescape : ∀ t, ['\\', 'u'].isPrefixOf? ('\\' :: 'u' :: t) = some t := fun _ => rfl
  simp only [unitEscape, List.cons_append, List.append_assoc, decodeChar?, ne_eq,
    not_true_eq_false, if_false, unit?_hex hfirst, hhigh, and_self, if_true, hdrop, hescape,
    unit?_hex hsecond, hlow]

theorem decodeChar?_plain {c : Char} (hslash : c ≠ '\\') (hquote : c ≠ '"') (hc : 0x20 ≤ c.toNat)
    (rest : Text) : decodeChar? (c :: rest) = some (c, 1) := by
  cases rest with
  | nil => simp [decodeChar?, hslash, hquote, hc]
  | cons d rest => simp [decodeChar?, hslash, hquote, hc]

/-- A character is read back from what it is written as. -/
theorem decodeChar?_encodeChar (c : Char) (rest : Text) :
    decodeChar? (encodeChar c ++ rest) = some (c, (encodeChar c).length) := by
  have hvalid : c.toNat < 0xD800 ∨ 0xDFFF < c.toNat ∧ c.toNat < 0x110000 := c.valid
  unfold encodeChar
  iterate 7
    split
    · rename_i hc
      rw [hc]
      rfl
  rename_i hquote hslash _ _ _ _ _
  split
  · rename_i hc
    exact decodeChar?_plain hslash hquote hc.1 rest
  split
  · rename_i hc
    have hhigh : ¬ (0xD800 ≤ c.toNat ∧ c.toNat ≤ 0xDBFF) := by omega
    rw [decodeChar?_unit hc hhigh, charOf?_toNat]
    simp [unitEscape]
  · -- The two halves of a surrogate pair give the code point back.
    have hhigh : 0xD800 ≤ 0xD800 + (c.toNat - 0x10000) / 0x400 ∧
        0xD800 + (c.toNat - 0x10000) / 0x400 ≤ 0xDBFF := by omega
    have hlow : 0xDC00 ≤ 0xDC00 + (c.toNat - 0x10000) % 0x400 ∧
        0xDC00 + (c.toNat - 0x10000) % 0x400 ≤ 0xDFFF := by omega
    have hpoint : 0x10000 + (0xD800 + (c.toNat - 0x10000) / 0x400 - 0xD800) * 0x400
        + (0xDC00 + (c.toNat - 0x10000) % 0x400 - 0xDC00) = c.toNat := by omega
    rw [decodeChar?_pair hhigh hlow, hpoint, charOf?_toNat]
    simp [unitEscape]

theorem exists_encodeChar_eq_cons (c : Char) : ∃ d s, encodeChar c = d :: s ∧ d ≠ '"' := by
  unfold encodeChar
  iterate 7
    split
    · exact ⟨'\\', _, rfl, by decide⟩
  rename_i hquote _ _ _ _ _ _
  split
  · exact ⟨c, [], rfl, hquote⟩
  split
  · exact ⟨'\\', _, rfl, by decide⟩
  · exact ⟨'\\', _, rfl, by decide⟩

/-! ### Strings -/

theorem isPrefixOf?_quote_encodeChar (c : Char) (rest : Text) :
    ['"'].isPrefixOf? (encodeChar c ++ rest) = none := by
  obtain ⟨d, s, hs, hd⟩ := exists_encodeChar_eq_cons c
  rw [hs]
  exact Text.isPrefixOf?_cons_of_ne hd.symm [] (s ++ rest)

theorem length_le_flatMap_encodeChar (s : Text) : s.length ≤ (s.flatMap encodeChar).length := by
  induction s with
  | nil => exact Nat.le_refl 0
  | cons c s ih =>
    obtain ⟨d, t, hc, _⟩ := exists_encodeChar_eq_cons c
    rw [List.flatMap_cons, List.length_append, hc, List.length_cons, List.length_cons]
    omega

theorem decodeInside?_encoded (s rest : Text) {fuel : Nat} (h : s.length < fuel) :
    decodeInside? fuel (s.flatMap encodeChar ++ '"' :: rest) = some (s, rest) := by
  induction s generalizing fuel with
  | nil =>
    obtain ⟨fuel, rfl⟩ := Nat.exists_eq_succ_of_ne_zero (Nat.ne_zero_of_lt h)
    rfl
  | cons c s ih =>
    obtain ⟨fuel, rfl⟩ := Nat.exists_eq_succ_of_ne_zero (Nat.ne_zero_of_lt h)
    have ih := ih (Nat.lt_of_succ_lt_succ h)
    rw [List.flatMap_cons, List.append_assoc, decodeInside?, isPrefixOf?_quote_encodeChar,
      decodeChar?_encodeChar]
    simp only [List.drop_left, ih, Option.map_some]

/-- A string is read back, and what follows its closing quote is left. -/
theorem decodeString?_encodeString (s rest : Text) :
    decodeString? (encodeString s ++ rest) = some (s, rest) := by
  have hinside : encodeString s ++ rest = '"' :: (s.flatMap encodeChar ++ '"' :: rest) := by
    simp [encodeString]
  have hstart : ['"'].isPrefixOf? ('"' :: (s.flatMap encodeChar ++ '"' :: rest))
      = some (s.flatMap encodeChar ++ '"' :: rest) := rfl
  have hfuel : s.length < (s.flatMap encodeChar ++ '"' :: rest).length + 1 := by
    have hle := length_le_flatMap_encodeChar s
    rw [List.length_append]
    omega
  rw [decodeString?, hinside, hstart, Option.bind_some, decodeInside?_encoded s rest hfuel]

/-! ### Objects -/

theorem decodeMember?_encodeMember (key value rest : Text) :
    decodeMember? (encodeMember key (encodeString value) ++ rest) = some ((key, value), rest) := by
  have hsplit : encodeMember key (encodeString value) ++ rest
      = encodeString key ++ ':' :: ' ' :: (encodeString value ++ rest) := by
    simp [encodeMember]
  have hkey : ∀ s t, skipSpace (encodeString s ++ t) = encodeString s ++ t := fun _ _ => rfl
  have hcolon : ∀ t, [':'].isPrefixOf? (skipSpace (':' :: ' ' :: t)) = some (' ' :: t) :=
    fun _ => rfl
  have hspace : ∀ t, skipSpace (' ' :: t) = skipSpace t := fun _ => rfl
  rw [hsplit, decodeMember?, hkey, decodeString?_encodeString]
  simp only [hcolon, hspace, hkey, decodeString?_encodeString, Option.map_some]

/-- The members of an object as they are written. -/
def encodeMembers (members : List (Text × Text)) : Text :=
  ", ".toList.intercalate (members.map fun m => encodeMember m.1 (encodeString m.2))

theorem decodeMembers?_cons_space : ∀ (fuel : Nat) (s : Text),
    decodeMembers? fuel (' ' :: s) = decodeMembers? fuel s
  | 0, _ => rfl
  | _ + 1, _ => rfl

theorem decodeMembers?_encodeMembers {members : List (Text × Text)} (hne : members ≠ [])
    (rest : Text) {fuel : Nat} (h : members.length ≤ fuel) :
    decodeMembers? fuel (encodeMembers members ++ '\x7d' :: rest) = some (members, rest) := by
  induction members generalizing fuel with
  | nil => exact absurd rfl hne
  | cons member members ih =>
    obtain ⟨fuel, rfl⟩ := Nat.exists_eq_add_of_le' (Nat.le_trans (Nat.succ_pos _) h)
    cases members with
    | nil =>
      have hbrace : skipSpace ('\x7d' :: rest) = '\x7d' :: rest := rfl
      simp only [encodeMembers, List.map_cons, List.map_nil, List.intercalate_singleton,
        decodeMembers?, decodeMember?_encodeMember, hbrace, if_true]
    | cons next members =>
      have hcomma : encodeMembers (member :: next :: members) ++ '\x7d' :: rest
          = encodeMember member.1 (encodeString member.2)
            ++ ',' :: ' ' :: (encodeMembers (next :: members) ++ '\x7d' :: rest) := by
        simp [encodeMembers]
      have hskip : ∀ t, skipSpace (',' :: t) = ',' :: t := fun _ => rfl
      have hbrace : (',' : Char) ≠ '\x7d' := by decide
      have ih := ih (List.cons_ne_nil next members) (Nat.le_of_succ_le_succ h)
      rw [hcomma, decodeMembers?, decodeMember?_encodeMember]
      simp only [hskip, hbrace, if_false, if_true, decodeMembers?_cons_space, ih, Option.map_some]

theorem length_le_encodeMembers (members : List (Text × Text)) :
    members.length ≤ (encodeMembers members).length := by
  induction members with
  | nil => exact Nat.le_refl 0
  | cons member members ih =>
    have hpos : 1 ≤ (encodeMember member.1 (encodeString member.2)).length := by
      simp [encodeMember, encodeString]
    rw [encodeMembers, List.map_cons, Text.intercalate_cons, List.length_append, List.length_cons]
    split
    · rename_i hnil
      rw [List.map_eq_nil_iff.1 hnil]
      simpa using hpos
    · have hlength := ih
      rw [encodeMembers] at hlength
      rw [List.length_append]
      omega

/-- An object with string members is read back from its encoded form. -/
theorem decodeObject?_encodeStrings (members : List (Text × Text)) :
    decodeObject? (encodeStrings members) = some members := by
  have hencoded : encodeStrings members = '\x7b' :: (encodeMembers members ++ ['\x7d']) := by
    simp [encodeStrings, encodeObject, encodeMembers, Function.comp_def]
  have hstart : ['\x7b'].isPrefixOf?
      (skipSpace ('\x7b' :: (encodeMembers members ++ ['\x7d'])))
        = some (encodeMembers members ++ ['\x7d']) := rfl
  rw [hencoded, decodeObject?, hstart]
  cases members with
  | nil => rfl
  | cons member members =>
    have hmembers : ['\x7d'].isPrefixOf?
        (skipSpace (encodeMembers (member :: members) ++ ['\x7d'])) = none := by
      rw [encodeMembers, List.map_cons, Text.intercalate_cons]
      rfl
    have hfuel : (member :: members).length
        ≤ (encodeMembers (member :: members) ++ ['\x7d']).length := by
      rw [List.length_append]
      exact Nat.le_add_right_of_le (length_le_encodeMembers _)
    simp only [hmembers, decodeMembers?_encodeMembers (List.cons_ne_nil member members) [] hfuel]
    rfl

theorem isPlain_of_mem_encodeStrings {members : List (Text × Text)} {c : Char}
    (h : c ∈ encodeStrings members) : isPlain c = true := by
  have hcolon : ∀ c ∈ ": ".toList, isPlain c = true := by decide
  have hcomma : ∀ c ∈ ", ".toList, isPlain c = true := by decide
  simp only [encodeStrings, encodeObject, List.cons_append, List.mem_cons, List.mem_append,
    List.not_mem_nil, or_false] at h
  rcases h with rfl | h | rfl
  · decide
  · rcases Text.mem_intercalate h with h | ⟨t, ht, h⟩
    · exact hcomma c h
    · obtain ⟨m, hm, rfl⟩ := List.mem_map.1 ht
      obtain ⟨_, _, rfl⟩ := List.mem_map.1 hm
      rcases List.mem_append.1 h with h | h
      · rcases List.mem_append.1 h with h | h
        · exact isPlain_of_mem_encodeString h
        · exact hcolon c h
      · exact isPlain_of_mem_encodeString h
  · decide

end Json

namespace TypeDef

/-- The record of a definition holds characters from U+0020 to U+007E only, it is read back as the
object with the kind, the name and the definition, and no two definitions have the same record. -/
theorem decodeObject?_toJson :
    (∀ d : TypeDef, (∀ c ∈ d.toJson, 0x20 ≤ c.toNat ∧ c.toNat ≤ 0x7E) ∧
      Json.decodeObject? d.toJson
        = some [("kind".toList, d.kind), ("name".toList, d.name), ("def".toList, d.definition)]) ∧
    ∀ d d' : TypeDef, d.toJson = d'.toJson → d = d' := by
  have hdecode : ∀ d : TypeDef, Json.decodeObject? d.toJson = some d.members := fun d =>
    Json.decodeObject?_encodeStrings d.members
  refine ⟨fun d => ⟨fun c hc => ?_, hdecode d⟩, fun d d' h => ?_⟩
  · have hplain := Json.isPlain_of_mem_encodeStrings hc
    simpa [Json.isPlain] using hplain
  · have hmembers : d.members = d'.members := by
      rw [← Option.some_inj, ← hdecode, h, hdecode]
    obtain ⟨kind, name, definition⟩ := d
    obtain ⟨kind', name', definition'⟩ := d'
    simpa [members] using hmembers

/-- Quotes, a brace, a backslash, the delete character and a character above U+FFFF. -/
theorem decodeObject?_toJson_escapes :
    let d : TypeDef := ⟨"fn".toList, "\"\x7d\\".toList, "𝄞\x7f".toList⟩
    let json := "\x7b\"kind\": \"fn\", \"name\": \"\\\"\x7d\\\\\", ".toList
      ++ "\"def\": \"\\ud834\\udd1e\\u007f\"\x7d".toList
    d.toJson = json ∧ (0x20 ≤ '\\'.toNat ∧ '\\'.toNat ≤ 0x7E) ∧
      Json.decodeObject? json = some [("kind".toList, "fn".toList),
        ("name".toList, "\"\x7d\\".toList), ("def".toList, "𝄞\x7f".toList)] ∧
      d = ⟨"fn".toList, "\"\x7d\\".toList, ['𝄞', '\x7f']⟩ := by
  intro d json
  have hjson : d.toJson = json := by decide
  have hmem : '\\' ∈ d.toJson := by decide
  obtain ⟨hplain, hdecode⟩ := decodeObject?_toJson.1 d
  exact ⟨hjson, hplain _ hmem, hjson ▸ hdecode, decodeObject?_toJson.2 d _ rfl⟩

end TypeDef

end TypeBridge
