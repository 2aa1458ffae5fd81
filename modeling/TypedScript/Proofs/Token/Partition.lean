import TypedScript.Proofs.Token.Layout

set_option autoImplicit false

/-!
The tokens of a line divide it up. They lie one behind the other, each is the
piece of the line that its offsets say, and a character belongs to no token
exactly if it is blank and stands in a gap between them.
-/

namespace TypedScript.Token

/-- The characters from one offset up to another. -/
def slice (t : Text) (start stop : Nat) : Text := (t.take stop).drop start

def Covers (token : Token) (place : Nat) : Prop := token.start ≤ place ∧ place < token.stop

instance (token : Token) (place : Nat) : Decidable (token.Covers place) :=
  inferInstanceAs (Decidable (_ ∧ _))

/-- The place lies in front of a token, and behind the token before that one if there is one. -/
def InGap (tokens : List Token) (place : Nat) : Prop :=
  ∃ before next after, tokens = before ++ next :: after ∧
    (∀ previous ∈ before.getLast?, previous.stop ≤ place) ∧ place < next.start

theorem start_le_stop (token : Token) : token.start ≤ token.stop := Nat.le_add_right _ _

theorem slice_append (x w y : Text) : slice (x ++ (w ++ y)) x.length (x.length + w.length) = w := by
  rw [slice, ← List.append_assoc, ← List.length_append, List.take_left, List.drop_left]

variable {line : Int} {start : Nat} {t : Text} {tokens : List Token}

theorem Tiles.start_le (tiles : Tiles line start t tokens) :
    ∀ token ∈ tokens, start ≤ token.start := by
  induction tiles with
  | ends => simp
  | token _ _ _ _ ih =>
    intro token membership
    rcases List.mem_cons.mp membership with rfl | later
    · exact Nat.le_add_right _ _
    · have := ih token later
      omega

/-- A token ends before the next one begins. -/
theorem Tiles.ordered (tiles : Tiles line start t tokens) :
    tokens.Pairwise fun earlier later => earlier.stop ≤ later.start := by
  induction tiles with
  | ends => simp
  | token _ _ _ others ih =>
    refine List.pairwise_cons.mpr ⟨?_, ih⟩
    intro later membership
    exact others.start_le later membership

/-- A place that no token covers holds a blank, in front of some token. -/
theorem Tiles.gap_of_uncovered (tiles : Tiles line start t tokens) {place : Nat} {c : Char}
    (present : t[place]? = some c) (uncovered : ∀ token ∈ tokens, ¬ token.Covers (start + place)) :
    isBlank c = true ∧ InGap tokens (start + place) := by
  induction tiles generalizing place with
  | @ends start gap blank =>
    obtain ⟨inside, -⟩ := List.getElem?_eq_some_iff.mp present
    refine ⟨blank c (List.mem_of_getElem? present), [], _, [], rfl, by simp, ?_⟩
    exact Nat.add_lt_add_left inside start
  | @token start kind gap w behind others blank _ _ _ ih =>
    have free := uncovered _ List.mem_cons_self
    simp only [Covers, stop] at free
    by_cases inGap : place < gap.length
    · rw [List.getElem?_append_left inGap] at present
      refine ⟨blank c (List.mem_of_getElem? present), [], _, others, rfl, by simp, ?_⟩
      exact Nat.add_lt_add_left inGap start
    · -- The first token does not cover the place, so the place lies behind it.
      have beyond : gap.length + w.length ≤ place := by omega
      have shifted : start + gap.length + w.length + (place - (gap.length + w.length)) =
          start + place := by omega
      have later : behind[place - (gap.length + w.length)]? = some c := by
        rw [List.getElem?_append_right (by omega), List.getElem?_append_right (by omega)] at present
        rwa [← Nat.sub_sub]
      obtain ⟨isBlank, before, next, after, rfl, limits, ahead⟩ := ih later (by
        rw [shifted]
        intro token membership
        exact uncovered token (by simp [membership]))
      rw [shifted] at limits ahead
      refine ⟨isBlank, _ :: before, next, after, rfl, ?_, ahead⟩
      intro previous last
      cases before with
      | nil =>
        obtain rfl : _ = previous := by simpa using last
        simp only [stop]
        omega
      | cons first before => exact limits previous (by simpa [List.getLast?_cons] using last)

/-- No token covers a place in a gap. -/
theorem uncovered_of_inGap (ordered : tokens.Pairwise fun earlier later => earlier.stop ≤ later.start)
    {place : Nat} (gap : InGap tokens place) : ∀ token ∈ tokens, ¬ token.Covers place := by
  obtain ⟨before, next, after, rfl, limits, ahead⟩ := gap
  obtain ⟨front, back, -⟩ := List.pairwise_append.mp ordered
  rintro token membership ⟨begun, unended⟩
  rcases List.mem_append.mp membership with earlier | later
  · -- The last token before the gap ends there, and all others end before that one begins.
    obtain ⟨init, last, rfl⟩ := (List.eq_nil_or_concat before).resolve_left
      (List.ne_nil_of_mem earlier)
    rw [List.concat_eq_append] at front limits earlier
    have lastEnds : last.stop ≤ place := limits last (by simp)
    rcases List.mem_append.mp earlier with inFront | isLast
    · have := (List.pairwise_append.mp front).2.2 token inFront last (by simp)
      have := last.start_le_stop
      omega
    · obtain rfl := List.mem_singleton.mp isLast
      omega
  · rcases List.mem_cons.mp later with rfl | afterwards
    · omega
    · have := (List.pairwise_cons.mp back).1 token afterwards
      have := next.start_le_stop
      omega

/-- A token is the piece of its line between its offsets. -/
theorem eq_slice_of_mem {token : Token} (membership : token ∈ tokenize line t) :
    token.text = slice t token.start token.stop ∧ token.stop ≤ t.length := by
  obtain ⟨before, behind, rfl, place, -⟩ := exists_behind_of_mem membership
  rw [Nat.zero_add] at place
  rw [stop, place]
  refine ⟨(slice_append before token.text behind).symm, ?_⟩
  simp only [List.length_append]
  omega

/-- The tokens of a line divide it up, and the characters that are left over are the blanks in the
gaps between them. -/
theorem tokenize_partitions (line : Int) (t : Text) :
    (∃ front last, tokenize line t = front ++ [last] ∧
        last.kind = .eof ∧ last.start = t.length ∧ last.stop = t.length ∧
        ∀ token ∈ front, token.kind ≠ .eof ∧ token.start < token.stop ∧ token.stop ≤ t.length) ∧
      ((tokenize line t).Pairwise fun earlier later => earlier.stop ≤ later.start) ∧
      (∀ token ∈ tokenize line t, token.text = slice t token.start token.stop ∧
        token.column = token.start + 1 ∧ token.line = line) ∧
      ∀ place c, t[place]? = some c →
        ((∀ token ∈ tokenize line t, ¬ token.Covers place) ↔
          isBlank c = true ∧ InGap (tokenize line t) place) := by
  have tiles : Tiles line 0 t (tokenize line t) := tokensFrom_tiles line 0 t
  refine ⟨?_, tiles.ordered, ?_, ?_⟩
  · obtain ⟨front, read, noEnd⟩ := exists_tokensFrom_eq_concat line 0 t
    rw [Nat.zero_add] at read
    refine ⟨front, _, read, rfl, rfl, rfl, ?_⟩
    intro token membership
    have member : token ∈ tokenize line t := by
      rw [tokenize, read]
      exact List.mem_append_left _ membership
    have real := noEnd token membership
    obtain ⟨before, behind, -, -, -, leads⟩ := exists_behind_of_mem member
    have filled := List.length_pos_iff.mpr (leads real).ne_nil
    refine ⟨real, ?_, (eq_slice_of_mem member).2⟩
    rw [stop]
    omega
  · intro token membership
    obtain ⟨-, -, -, -, sameLine, -⟩ := exists_behind_of_mem membership
    exact ⟨(eq_slice_of_mem membership).1, rfl, sameLine⟩
  · intro place c present
    constructor
    · intro uncovered
      have gap := tiles.gap_of_uncovered present (by simpa using uncovered)
      rwa [Nat.zero_add] at gap
    · rintro ⟨-, gap⟩
      exact uncovered_of_inGap tiles.ordered gap

/-- In `x 'a b` the blank behind the name lies in a gap. -/
theorem tokenize_partitions_open_string :
    "x 'a b".toList[1]? = some ' ' ∧ InGap (tokenize 3 "x 'a b".toList) 1 := by
  have present : "x 'a b".toList[1]? = some ' ' := by decide
  have uncovered : ∀ token ∈ tokenize 3 "x 'a b".toList, ¬ token.Covers 1 := by
    decide +kernel
  exact ⟨present, (((tokenize_partitions 3 "x 'a b".toList).2.2.2 1 ' ' present).mp uncovered).2⟩

end TypedScript.Token
