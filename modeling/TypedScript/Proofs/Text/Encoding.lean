import Mathlib.Data.List.Forall2
import TypedScript.Text.Encoding

set_option autoImplicit false

/-!
Decoding gives back what was encoded. A character is encoded as a lead byte with
followers that lie in the ranges of that lead byte and carry the code point six
bits each, so a strict reader follows them to the end of the sequence, whatever
stands behind it.
-/

namespace TypedScript.Encoding

def InRange (range : Nat × Nat) (b : UInt8) : Prop := range.1 ≤ b.toNat ∧ b.toNat ≤ range.2

/-- A lead byte and its followers spell a code point. -/
structure Spells (lead : UInt8) (tail : Bytes) (code : Nat) : Prop where
  inRanges : ∃ ranges, followers? lead.toNat = some ranges ∧ List.Forall₂ InRange ranges tail
  value : tail.foldl (fun value b => 64 * value + (b.toNat - 0x80)) (leadBits lead.toNat) = code

theorem follow_append {ranges : List (Nat × Nat)} {tail : Bytes}
    (inRanges : List.Forall₂ InRange ranges tail) (value read : Nat) (rest : Bytes) :
    follow value read ranges (tail ++ rest) =
      .ok (tail.foldl (fun value b => 64 * value + (b.toNat - 0x80)) value, read + tail.length) := by
  induction inRanges generalizing value read with
  | nil => rfl
  | @cons range b ranges tail first _ ih =>
    obtain ⟨low, high⟩ := first
    rw [List.cons_append, follow, if_pos ⟨low, high⟩, ih, List.foldl_cons, List.length_cons]
    congr 2
    omega

/-- A sequence is read whole, and reading goes on behind it. -/
theorem Spells.decodeFrom_append {lead : UInt8} {tail : Bytes} {code : Nat}
    (spells : Spells lead tail code) (position : Nat) (rest : Bytes) :
    decodeFrom position (lead :: tail ++ rest) =
      (decodeFrom (position + (lead :: tail).length) rest).map (Char.ofNat code :: ·) := by
  obtain ⟨⟨ranges, found, inRanges⟩, value⟩ := spells
  rw [List.cons_append, decodeFrom, found]
  simp only [follow_append inRanges, value]
  have behind : (tail ++ rest).drop (1 + tail.length - 1) = rest := by
    rw [Nat.add_sub_cancel_left, List.drop_left]
  have place : position + (1 + tail.length) = position + (lead :: tail).length := by
    rw [List.length_cons, Nat.add_comm 1]
  rw [behind, place]
  cases decodeFrom (position + (lead :: tail).length) rest <;> rfl

theorem toNat_toUInt8 {n : Nat} (byte : n < 0x100) : n.toUInt8.toNat = n :=
  UInt8.toNat_ofNat_of_lt' byte

/-- A follower carries six bits. -/
theorem toNat_follower (n : Nat) : (0x80 + n % 64).toUInt8.toNat = 0x80 + n % 64 :=
  toNat_toUInt8 (by omega)

section

variable {lead : Nat}

theorem followers?_two (low : 0xC2 ≤ lead) (high : lead < 0xE0) :
    followers? lead = some [(0x80, 0xBF)] := by
  have noOne : ¬ lead < 0x80 := by omega
  have noGap : ¬ lead < 0xC2 := by omega
  simp [followers?, noOne, noGap, high]

/-- Below the least first follower a code point would fit two bytes; above the greatest one there
are the surrogates. -/
theorem followers?_three (low : 0xE0 ≤ lead) (high : lead < 0xF0) :
    followers? lead = some [(if lead = 0xE0 then 0xA0 else 0x80, if lead = 0xED then 0x9F else 0xBF),
      (0x80, 0xBF)] := by
  have noOne : ¬ lead < 0x80 := by omega
  have noGap : ¬ lead < 0xC2 := by omega
  have noTwo : ¬ lead < 0xE0 := by omega
  by_cases first : lead = 0xE0
  · simp [followers?, first]
  · by_cases surrogates : lead = 0xED <;>
      simp [followers?, noOne, noGap, noTwo, first, surrogates, high]

/-- Below the least first follower a code point would fit three bytes; above the greatest one there
are no more code points. -/
theorem followers?_four (low : 0xF0 ≤ lead) (high : lead ≤ 0xF4) :
    followers? lead = some [(if lead = 0xF0 then 0x90 else 0x80, if lead = 0xF4 then 0x8F else 0xBF),
      (0x80, 0xBF), (0x80, 0xBF)] := by
  have values : lead = 0xF0 ∨ lead = 0xF1 ∨ lead = 0xF2 ∨ lead = 0xF3 ∨ lead = 0xF4 := by omega
  rcases values with rfl | rfl | rfl | rfl | rfl <;> rfl

theorem leadBits_two (low : 0xC0 ≤ lead) (high : lead < 0xE0) : leadBits lead = lead - 0xC0 := by
  rw [leadBits, if_neg (by omega), if_pos high]

theorem leadBits_three (low : 0xE0 ≤ lead) (high : lead < 0xF0) : leadBits lead = lead - 0xE0 := by
  rw [leadBits, if_neg (by omega), if_neg (by omega), if_pos high]

theorem leadBits_four (low : 0xF0 ≤ lead) : leadBits lead = lead - 0xF0 := by
  rw [leadBits, if_neg (by omega), if_neg (by omega), if_neg (by omega)]

end

section

variable {n : Nat}

theorem spells_one (bound : n < 0x80) : Spells n.toUInt8 [] n := by
  have lead : n.toUInt8.toNat = n := toNat_toUInt8 (by omega)
  refine ⟨⟨[], ?_, .nil⟩, ?_⟩
  · simp [lead, followers?, bound]
  · simp [lead, leadBits, bound]

theorem spells_two (low : 0x80 ≤ n) (high : n < 0x800) :
    Spells (0xC0 + n / 64).toUInt8 [(0x80 + n % 64).toUInt8] n := by
  have lead : (0xC0 + n / 64).toUInt8.toNat = 0xC0 + n / 64 := toNat_toUInt8 (by omega)
  refine ⟨⟨_, by rw [lead, followers?_two (by omega) (by omega)], ?_⟩, ?_⟩
  · simp only [List.forall₂_cons, List.forall₂_nil_left_iff, InRange, toNat_follower, and_true]
    omega
  · rw [lead, leadBits_two (by omega) (by omega)]
    simp only [List.foldl_cons, List.foldl_nil, toNat_follower]
    omega

theorem spells_three (low : 0x800 ≤ n) (high : n < 0x10000) (noSurrogate : n < 0xD800 ∨ 0xDFFF < n) :
    Spells (0xE0 + n / 4096).toUInt8 [(0x80 + n / 64 % 64).toUInt8, (0x80 + n % 64).toUInt8] n := by
  have lead : (0xE0 + n / 4096).toUInt8.toNat = 0xE0 + n / 4096 := toNat_toUInt8 (by omega)
  refine ⟨⟨_, by rw [lead, followers?_three (by omega) (by omega)], ?_⟩, ?_⟩
  · simp only [List.forall₂_cons, List.forall₂_nil_left_iff, InRange, toNat_follower, and_true]
    split <;> split <;> omega
  · rw [lead, leadBits_three (by omega) (by omega)]
    simp only [List.foldl_cons, List.foldl_nil, toNat_follower]
    omega

theorem spells_four (low : 0x10000 ≤ n) (high : n < 0x110000) :
    Spells (0xF0 + n / 262144).toUInt8
      [(0x80 + n / 4096 % 64).toUInt8, (0x80 + n / 64 % 64).toUInt8, (0x80 + n % 64).toUInt8] n := by
  have lead : (0xF0 + n / 262144).toUInt8.toNat = 0xF0 + n / 262144 := toNat_toUInt8 (by omega)
  refine ⟨⟨_, by rw [lead, followers?_four (by omega) (by omega)], ?_⟩, ?_⟩
  · simp only [List.forall₂_cons, List.forall₂_nil_left_iff, InRange, toNat_follower, and_true]
    split <;> split <;> omega
  · rw [lead, leadBits_four (by omega)]
    simp only [List.foldl_cons, List.foldl_nil, toNat_follower]
    omega

end

/-- The encoding of a character spells its code point. -/
theorem exists_spells (c : Char) :
    ∃ lead tail, encodeChar c = lead :: tail ∧ Spells lead tail c.toNat := by
  have valid : c.toNat < 0xD800 ∨ 0xDFFF < c.toNat ∧ c.toNat < 0x110000 := c.valid
  unfold encodeChar
  by_cases one : c.toNat < 0x80
  · exact ⟨_, _, by simp only [one, if_true], spells_one one⟩
  · by_cases two : c.toNat < 0x800
    · exact ⟨_, _, by simp only [one, two, if_true, if_false], spells_two (by omega) two⟩
    · by_cases three : c.toNat < 0x10000
      · exact ⟨_, _, by simp only [one, two, three, if_true, if_false],
          spells_three (by omega) three (by omega)⟩
      · exact ⟨_, _, by simp only [one, two, three, if_false], spells_four (by omega) (by omega)⟩

theorem decodeFrom_encode (position : Nat) (t : Text) : decodeFrom position (encode t) = .ok t := by
  induction t generalizing position with
  | nil => rw [encode, List.flatMap_nil, decodeFrom]
  | cons c rest ih =>
    obtain ⟨lead, tail, encoded, spells⟩ := exists_spells c
    rw [encode, List.flatMap_cons, ← encode, encoded, spells.decodeFrom_append, ih,
      Char.ofNat_toNat]
    rfl

/-- Every text is read back from its encoding. -/
theorem decode_encode (t : Text) : decode (encode t) = .ok t := decodeFrom_encode 0 t

end TypedScript.Encoding
