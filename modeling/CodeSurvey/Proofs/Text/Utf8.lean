import CodeSurvey.Text.Utf8

/-
Strict decoding is the inverse of encoding: `decode_eq_ok_iff`.  Both sides are arithmetic on the
values of bytes, so each form of a character, of one to four bytes, takes one lemma for reading its
bytes and one for writing them.
-/

namespace CodeSurvey
namespace Text
namespace Utf8

theorem toNat_byte {n : Nat} (h : n < 256) : (UInt8.ofNat n).toNat = n := UInt8.toNat_ofNat_of_lt' h

theorem between_iff {lowest highest b : UInt8} :
    (decide (lowest ≤ b) && decide (b ≤ highest)) = true ↔
    lowest.toNat ≤ b.toNat ∧ b.toNat ≤ highest.toNat := by
  simp only [Bool.and_eq_true, decide_eq_true_eq, UInt8.le_iff_toNat_le]

theorem isContinuation_iff {b : UInt8} :
    isContinuation b = true ↔ 0x80 ≤ b.toNat ∧ b.toNat ≤ 0xBF := between_iff

/-- Both rules for a second byte narrow the range of continuation bytes, from below after one lead
byte and from above after another. -/
theorem second_iff {lead b least most lowest highest : UInt8} (hne : least ≠ most)
    (hlowest : 0x80 ≤ lowest.toNat) (hhighest : highest.toNat ≤ 0xBF) :
    (if lead == least then decide (lowest ≤ b) && decide (b ≤ 0xBF)
      else if lead == most then decide (0x80 ≤ b) && decide (b ≤ highest)
      else isContinuation b) = true ↔
    (0x80 ≤ b.toNat ∧ b.toNat ≤ 0xBF) ∧ (lead.toNat = least.toNat → lowest.toNat ≤ b.toNat) ∧
      (lead.toNat = most.toNat → b.toNat ≤ highest.toNat) := by
  rw [UInt8.toNat_inj, UInt8.toNat_inj]
  by_cases hleast : lead = least
  · have hmost : lead ≠ most := hleast ▸ hne
    rw [if_pos (beq_iff_eq.mpr hleast), forall_prop_of_true hleast, forall_prop_of_false hmost,
      between_iff, and_true]
    show _ ∧ _ ≤ 0xBF ↔ _
    omega
  · rw [if_neg (mt beq_iff_eq.mp hleast), forall_prop_of_false hleast]
    by_cases hmost : lead = most
    · rw [if_pos (beq_iff_eq.mpr hmost), forall_prop_of_true hmost, between_iff, true_and]
      show 0x80 ≤ _ ∧ _ ↔ _
      omega
    · rw [if_neg (mt beq_iff_eq.mp hmost), forall_prop_of_false hmost, isContinuation_iff,
        and_true, and_true]

theorem secondOfThree_iff {lead b : UInt8} : secondOfThree lead b = true ↔
    (0x80 ≤ b.toNat ∧ b.toNat ≤ 0xBF) ∧ (lead.toNat = 0xE0 → 0xA0 ≤ b.toNat) ∧
    (lead.toNat = 0xED → b.toNat ≤ 0x9F) :=
  second_iff (by decide) (by decide) (by decide)

theorem secondOfFour_iff {lead b : UInt8} : secondOfFour lead b = true ↔
    (0x80 ≤ b.toNat ∧ b.toNat ≤ 0xBF) ∧ (lead.toNat = 0xF0 → 0x90 ≤ b.toNat) ∧
    (lead.toNat = 0xF4 → b.toNat ≤ 0x8F) :=
  second_iff (by decide) (by decide) (by decide)

/-! ## Writing -/

theorem toNat_char {n : Nat} (h : n.isValidChar) : (Char.ofNat n).val.toNat = n := by
  rw [Char.ofNat, dif_pos h]
  exact UInt32.toNat_ofNatLT

theorem eq_byte {n : Nat} {b : UInt8} (h : n = b.toNat) : UInt8.ofNat n = b := by
  rw [h, UInt8.ofNat_toNat]

theorem utf8EncodeChar_one {b0 : UInt8} (h0 : b0.toNat < 0x80) :
    String.utf8EncodeChar (Char.ofNat b0.toNat) = [b0] := by
  unfold String.utf8EncodeChar
  rw [toNat_char (.inl (by omega))]
  dsimp only
  rw [if_pos (by omega), eq_byte rfl]

theorem utf8EncodeChar_two {b0 b1 : UInt8} (h0 : 0xC2 ≤ b0.toNat ∧ b0.toNat ≤ 0xDF)
    (h1 : 0x80 ≤ b1.toNat ∧ b1.toNat ≤ 0xBF) :
    String.utf8EncodeChar (Char.ofNat (b0.toNat % 32 * 64 + low b1)) = [b0, b1] := by
  unfold String.utf8EncodeChar low
  rw [toNat_char (.inl (by omega))]
  dsimp only
  rw [if_neg (by omega), if_pos (by omega), eq_byte (show _ = b0.toNat by omega),
    eq_byte (show _ = b1.toNat by omega)]

theorem utf8EncodeChar_three {b0 b1 b2 : UInt8} (h0 : 0xE0 ≤ b0.toNat ∧ b0.toNat ≤ 0xEF)
    (h1 : secondOfThree b0 b1 = true) (h2 : 0x80 ≤ b2.toNat ∧ b2.toNat ≤ 0xBF) :
    String.utf8EncodeChar (Char.ofNat ((b0.toNat % 16 * 64 + low b1) * 64 + low b2)) =
      [b0, b1, b2] := by
  rw [secondOfThree_iff] at h1
  have hvalid : ((b0.toNat % 16 * 64 + low b1) * 64 + low b2).isValidChar := by
    unfold Nat.isValidChar low
    omega
  unfold String.utf8EncodeChar
  rw [toNat_char hvalid]
  unfold low
  dsimp only
  rw [if_neg (by omega), if_neg (by omega), if_pos (by omega), eq_byte (show _ = b0.toNat by omega),
    eq_byte (show _ = b1.toNat by omega), eq_byte (show _ = b2.toNat by omega)]

theorem utf8EncodeChar_four {b0 b1 b2 b3 : UInt8} (h0 : 0xF0 ≤ b0.toNat ∧ b0.toNat ≤ 0xF4)
    (h1 : secondOfFour b0 b1 = true) (h2 : 0x80 ≤ b2.toNat ∧ b2.toNat ≤ 0xBF)
    (h3 : 0x80 ≤ b3.toNat ∧ b3.toNat ≤ 0xBF) :
    String.utf8EncodeChar
      (Char.ofNat (((b0.toNat % 8 * 64 + low b1) * 64 + low b2) * 64 + low b3)) =
      [b0, b1, b2, b3] := by
  rw [secondOfFour_iff] at h1
  have hvalid : (((b0.toNat % 8 * 64 + low b1) * 64 + low b2) * 64 + low b3).isValidChar := by
    unfold Nat.isValidChar low
    omega
  unfold String.utf8EncodeChar
  rw [toNat_char hvalid]
  unfold low
  dsimp only
  rw [if_neg (by omega), if_neg (by omega), if_neg (by omega), eq_byte (show _ = b0.toNat by omega),
    eq_byte (show _ = b1.toNat by omega), eq_byte (show _ = b2.toNat by omega),
    eq_byte (show _ = b3.toNat by omega)]

theorem encode_cons (c : Char) (text : List Char) :
    encode (c :: text) = String.utf8EncodeChar c ++ encode text :=
  List.flatMap_cons ..

/-- Bytes whose pieces are all characters are the encoding of these characters. -/
theorem eq_encode_of_scan {bytes : List UInt8}
    (h : ∀ piece ∈ scan bytes, ∃ c size, piece = .char c size) :
    bytes = encode ((scan bytes).map Piece.replaced) := by
  fun_induction scan bytes with
  | case1 => rfl
  | case2 b0 rest hb0 ih =>
      rw [UInt8.lt_iff_toNat_lt] at hb0
      rw [List.map_cons, encode_cons, Piece.replaced, utf8EncodeChar_one hb0,
        ← ih (List.forall_mem_cons.mp h).2]
      rfl
  | case4 b0 _ hb0 b1 rest hb1 ih =>
      rw [List.map_cons, encode_cons, Piece.replaced,
        utf8EncodeChar_two (between_iff.mp hb0) (isContinuation_iff.mp hb1),
        ← ih (List.forall_mem_cons.mp h).2]
      rfl
  | case8 b0 _ _ hb0 b1 hb1 b2 rest hb2 ih =>
      rw [List.map_cons, encode_cons, Piece.replaced,
        utf8EncodeChar_three (between_iff.mp hb0) hb1 (isContinuation_iff.mp hb2),
        ← ih (List.forall_mem_cons.mp h).2]
      rfl
  | case14 b0 _ _ _ hb0 b1 hb1 b2 hb2 b3 rest hb3 ih =>
      rw [List.map_cons, encode_cons, Piece.replaced,
        utf8EncodeChar_four (between_iff.mp hb0) hb1 (isContinuation_iff.mp hb2)
          (isContinuation_iff.mp hb3),
        ← ih (List.forall_mem_cons.mp h).2]
      rfl
  | _ =>
      -- the first piece is not a character
      obtain ⟨_, _, heq⟩ := h _ List.mem_cons_self
      contradiction

/-! ## Reading -/

theorem between_eq_false {lowest highest b : UInt8}
    (h : ¬ (lowest.toNat ≤ b.toNat ∧ b.toNat ≤ highest.toNat)) :
    (decide (lowest ≤ b) && decide (b ≤ highest)) = false := by
  rw [← Bool.not_eq_true, between_iff]
  exact h

theorem scan_one {b0 : UInt8} (h0 : b0.toNat < 0x80) (rest : List UInt8) :
    scan (b0 :: rest) = .char (Char.ofNat b0.toNat) 1 :: scan rest := by
  have hone : b0 < 0x80 := UInt8.lt_iff_toNat_lt.mpr h0
  rw [scan.eq_def]
  simp only [hone, if_true]

theorem scan_two {b0 b1 : UInt8} (h0 : 0xC2 ≤ b0.toNat ∧ b0.toNat ≤ 0xDF)
    (h1 : isContinuation b1 = true) (rest : List UInt8) :
    scan (b0 :: b1 :: rest) = .char (Char.ofNat (b0.toNat % 32 * 64 + low b1)) 2 :: scan rest := by
  have hone : ¬ b0 < 0x80 :=
    UInt8.not_lt.mpr (UInt8.le_iff_toNat_le.mpr (Nat.le_trans (by decide) h0.1))
  have htwo : (decide (0xC2 ≤ b0) && decide (b0 ≤ 0xDF)) = true := between_iff.mpr h0
  rw [scan.eq_def]
  simp only [hone, htwo, h1, if_false, if_true]

theorem scan_three {b0 b1 b2 : UInt8} (h0 : 0xE0 ≤ b0.toNat ∧ b0.toNat ≤ 0xEF)
    (h1 : secondOfThree b0 b1 = true) (h2 : isContinuation b2 = true) (rest : List UInt8) :
    scan (b0 :: b1 :: b2 :: rest) =
      .char (Char.ofNat ((b0.toNat % 16 * 64 + low b1) * 64 + low b2)) 3 :: scan rest := by
  have hone : ¬ b0 < 0x80 :=
    UInt8.not_lt.mpr (UInt8.le_iff_toNat_le.mpr (Nat.le_trans (by decide) h0.1))
  have htwo : (decide (0xC2 ≤ b0) && decide (b0 ≤ 0xDF)) = false :=
    between_eq_false fun h => absurd (Nat.le_trans h0.1 h.2) (by decide)
  have hthree : (decide (0xE0 ≤ b0) && decide (b0 ≤ 0xEF)) = true := between_iff.mpr h0
  rw [scan.eq_def]
  simp only [hone, htwo, hthree, h1, h2, if_false, if_true, Bool.false_eq_true]

theorem scan_four {b0 b1 b2 b3 : UInt8} (h0 : 0xF0 ≤ b0.toNat ∧ b0.toNat ≤ 0xF4)
    (h1 : secondOfFour b0 b1 = true) (h2 : isContinuation b2 = true) (h3 : isContinuation b3 = true)
    (rest : List UInt8) :
    scan (b0 :: b1 :: b2 :: b3 :: rest) =
      .char (Char.ofNat (((b0.toNat % 8 * 64 + low b1) * 64 + low b2) * 64 + low b3)) 4 ::
        scan rest := by
  have hone : ¬ b0 < 0x80 :=
    UInt8.not_lt.mpr (UInt8.le_iff_toNat_le.mpr (Nat.le_trans (by decide) h0.1))
  have htwo : (decide (0xC2 ≤ b0) && decide (b0 ≤ 0xDF)) = false :=
    between_eq_false fun h => absurd (Nat.le_trans h0.1 h.2) (by decide)
  have hthree : (decide (0xE0 ≤ b0) && decide (b0 ≤ 0xEF)) = false :=
    between_eq_false fun h => absurd (Nat.le_trans h0.1 h.2) (by decide)
  have hfour : (decide (0xF0 ≤ b0) && decide (b0 ≤ 0xF4)) = true := between_iff.mpr h0
  rw [scan.eq_def]
  simp only [hone, htwo, hthree, hfour, h1, h2, h3, if_false, if_true, Bool.false_eq_true]

/-- The bytes of a character are read as that character. -/
theorem scan_utf8EncodeChar (c : Char) (rest : List UInt8) :
    ∃ size, scan (String.utf8EncodeChar c ++ rest) = .char c size :: scan rest := by
  have hvalid : c.val.toNat < 0xD800 ∨ (0xDFFF < c.val.toNat ∧ c.val.toNat < 0x110000) := c.valid
  unfold String.utf8EncodeChar
  generalize hv : c.val.toNat = v at hvalid
  have hc : ∀ n, n = v → Char.ofNat n = c := fun n hn => hn ▸ hv ▸ Char.ofNat_toNat c
  dsimp only
  split
  · refine ⟨1, (scan_one ?_ rest).trans ?_⟩ <;> rw [toNat_byte (by omega)]
    · omega
    · rw [hc v rfl]
  · split
    · refine ⟨2, (scan_two ?_ (isContinuation_iff.mpr ?_) rest).trans ?_⟩
      · rw [toNat_byte (by omega)]
        omega
      · rw [toNat_byte (by omega)]
        omega
      · rw [low, toNat_byte (by omega), toNat_byte (by omega), hc _ (by omega)]
    · split
      · refine ⟨3,
          (scan_three ?_ (secondOfThree_iff.mpr ?_) (isContinuation_iff.mpr ?_) rest).trans ?_⟩
        · rw [toNat_byte (by omega)]
          omega
        · rw [toNat_byte (by omega), toNat_byte (by omega)]
          omega
        · rw [toNat_byte (by omega)]
          omega
        · rw [low, low, toNat_byte (by omega), toNat_byte (by omega), toNat_byte (by omega),
            hc _ (by omega)]
      · refine ⟨4, (scan_four ?_ (secondOfFour_iff.mpr ?_) (isContinuation_iff.mpr ?_)
          (isContinuation_iff.mpr ?_) rest).trans ?_⟩
        · rw [toNat_byte (by omega)]
          omega
        · rw [toNat_byte (by omega), toNat_byte (by omega)]
          omega
        · rw [toNat_byte (by omega)]
          omega
        · rw [toNat_byte (by omega)]
          omega
        · rw [low, low, low, toNat_byte (by omega), toNat_byte (by omega), toNat_byte (by omega),
            toNat_byte (by omega), hc _ (by omega)]

/-! ## Strict decoding -/

/-- Bytes are text if every piece is a character, whatever came before; the text is
what the pieces hold. -/
theorem strict_eq_ok_iff {pieces : List Piece} {text : List Char} {index : Nat} :
    strict index pieces = .ok text ↔
      (∀ piece ∈ pieces, ∃ c size, piece = .char c size) ∧ pieces.map Piece.replaced = text := by
  induction pieces generalizing index text with
  | nil => simp [strict]
  | cons piece rest ih =>
      cases piece with
      | char c size =>
          have hmap : strict index (.char c size :: rest) = .ok text ↔
              ∃ more, strict (index + size) rest = .ok more ∧ c :: more = text := by
            rw [strict]
            cases strict (index + size) rest <;> simp [Except.map]
          rw [hmap]
          simp [ih, Piece.replaced, and_assoc]
      | invalid size => simp [strict]
      | incomplete => simp [strict]

theorem scan_encode (text : List Char) :
    (∀ piece ∈ scan (encode text), ∃ c size, piece = .char c size) ∧
      (scan (encode text)).map Piece.replaced = text := by
  induction text with
  | nil => exact ⟨fun _ => nofun, rfl⟩
  | cons c text ih =>
      obtain ⟨size, hscan⟩ := scan_utf8EncodeChar c (encode text)
      rw [encode_cons, hscan, List.forall_mem_cons, List.map_cons, ih.2]
      exact ⟨⟨⟨c, size, rfl⟩, ih.1⟩, rfl⟩

/-- The bytes that can be decoded are the encodings of texts. -/
theorem decode_eq_ok_iff {bytes : List UInt8} {text : List Char} :
    decode bytes = .ok text ↔ bytes = encode text := by
  rw [decode, strict_eq_ok_iff]
  constructor
  · rintro ⟨hchars, rfl⟩
    exact eq_encode_of_scan hchars
  · rintro rfl
    exact scan_encode text

end Utf8
end Text
end CodeSurvey
