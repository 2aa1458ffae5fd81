import TypedScript.Lowering.Lower
import TypedScript.Proofs.Lowering.Walk
import TypedScript.Proofs.Text.Classes

set_option autoImplicit false

/-!
The words of a text, which are its maximal runs of word characters, and what
rules do to them. A rule that begins and ends at the borders of words brings no
word into a text but the words it writes.
-/

namespace TypedScript.Lowering

/-- Whether a word may go on behind a character. -/
def inWord (before : Option Char) : Bool := (before.map isWordChar).getD false

/-- The word characters that a text begins with. -/
def headWord (t : Text) : Text := t.takeWhile isWordChar

/-- The words of a text; a word that has begun before the text is not one of them. -/
def wordsFrom (inside : Bool) : Text → List Text
  | [] => []
  | c :: rest =>
    if isWordChar c then
      if inside then wordsFrom true rest else headWord (c :: rest) :: wordsFrom true rest
    else wordsFrom false rest

def wordsOf (t : Text) : List Text := wordsFrom false t

theorem headWord_nil : headWord [] = [] := rfl

theorem headWord_cons_of_word {c : Char} (rest : Text) (word : isWordChar c = true) :
    headWord (c :: rest) = c :: headWord rest := by simp [headWord, word]

theorem headWord_cons_of_not_word {c : Char} (rest : Text) (border : isWordChar c = false) :
    headWord (c :: rest) = [] := by simp [headWord, border]

theorem wordEnds_iff {t : Text} : wordEnds t = true ↔ headWord t = [] := by
  cases t with
  | nil => simp [wordEnds, headWord]
  | cons c rest => simp [wordEnds, headWord, List.takeWhile_cons]

theorem wordEnds_cons {c : Char} {rest : Text} :
    wordEnds (c :: rest) = true ↔ isWordChar c = false := by simp [wordEnds]

theorem border_of_blank {t : Text} (blank : ∀ c ∈ t, isBlank c = true) :
    ∀ c ∈ t, isWordChar c = false := fun c membership =>
  isWordChar_eq_false_of_isBlank (blank c membership)

theorem wordEnds_of_blank {t : Text} (blank : ∀ c ∈ t, isBlank c = true) : wordEnds t = true := by
  cases t with
  | nil => rfl
  | cons c rest => exact wordEnds_cons.mpr (border_of_blank blank c (by simp))

theorem wordEnds_blank_append {gap : Text} (rest : Text) (blank : ∀ c ∈ gap, isBlank c = true)
    (filled : gap ≠ []) : wordEnds (gap ++ rest) = true := by
  obtain ⟨c, others, rfl⟩ := List.exists_cons_of_ne_nil filled
  exact wordEnds_cons.mpr (border_of_blank blank c (by simp))

theorem headWord_append_of_wordEnds (x : Text) {y : Text} (ends : wordEnds y = true) :
    headWord (x ++ y) = headWord x := by
  induction x with
  | nil => exact wordEnds_iff.mp ends
  | cons c x ih =>
    by_cases word : isWordChar c = true
    · rw [List.cons_append, headWord_cons_of_word _ word, headWord_cons_of_word _ word, ih]
    · rw [List.cons_append, headWord_cons_of_not_word _ (by simpa using word),
        headWord_cons_of_not_word _ (by simpa using word)]

theorem headWord_append_of_word {w : Text} (y : Text) (spelled : ∀ c ∈ w, isWordChar c = true) :
    headWord (w ++ y) = w ++ headWord y := List.takeWhile_append_of_pos spelled

theorem headWord_of_word {w : Text} (spelled : ∀ c ∈ w, isWordChar c = true) : headWord w = w := by
  have whole := headWord_append_of_word [] spelled
  rwa [List.append_nil, headWord_nil, List.append_nil] at whole

/-- A text of word characters is the word at a place exactly if it stands there and ends. -/
theorem headWord_eq_iff {w ahead : Text} (spelled : ∀ c ∈ w, isWordChar c = true) :
    headWord ahead = w ↔ w.isPrefixOf ahead = true ∧ wordEnds (ahead.drop w.length) = true := by
  constructor
  · intro same
    have split : ahead = w ++ ahead.dropWhile isWordChar := by
      rw [← same, headWord, List.takeWhile_append_dropWhile]
    rw [split, List.drop_left]
    refine ⟨List.isPrefixOf_iff_prefix.mpr (List.prefix_append _ _), ?_⟩
    have back := headWord_append_of_word (ahead.dropWhile isWordChar) spelled
    rw [← split, same] at back
    exact wordEnds_iff.mpr (by simpa using back)
  · rintro ⟨front, ends⟩
    obtain ⟨rest, rfl⟩ := List.isPrefixOf_iff_prefix.mp front
    rw [List.drop_left] at ends
    rw [headWord_append_of_word rest spelled, wordEnds_iff.mp ends, List.append_nil]

theorem wholeWord?_eq {w : Text} (spelled : ∀ c ∈ w, isWordChar c = true) (before : Option Char)
    (ahead : Text) :
    wholeWord? w before ahead =
      if inWord before = false ∧ headWord ahead = w then some w.length else none := by
  simp only [wholeWord?, headWord_eq_iff spelled, inWord, Bool.and_eq_true, Bool.not_eq_true',
    and_assoc]

theorem wordsFrom_of_wordEnds {t : Text} (ends : wordEnds t = true) (inside other : Bool) :
    wordsFrom inside t = wordsFrom other t := by
  cases t with
  | nil => rfl
  | cons c rest => simp [wordsFrom, wordEnds_cons.mp ends]

/-- At the border of a word the words of a text are those of its two parts. -/
theorem wordsFrom_append (inside other : Bool) (x : Text) {y : Text} (ends : wordEnds y = true) :
    wordsFrom inside (x ++ y) = wordsFrom inside x ++ wordsFrom other y := by
  induction x generalizing inside with
  | nil => exact wordsFrom_of_wordEnds ends inside other
  | cons c x ih =>
    have head := headWord_append_of_wordEnds (c :: x) ends
    rw [List.cons_append] at head ⊢
    simp only [wordsFrom, head, ih]
    split
    · split <;> rfl
    · rfl

/-- Behind borders the words of a text are its own, whatever went on before. -/
theorem wordsFrom_borders (inside : Bool) {gap : Text} (t : Text) (filled : gap ≠ [])
    (border : ∀ c ∈ gap, isWordChar c = false) : wordsFrom inside (gap ++ t) = wordsFrom false t := by
  induction gap generalizing inside with
  | nil => exact absurd rfl filled
  | cons c gap ih =>
    rw [List.cons_append, wordsFrom, border c (by simp)]
    by_cases last : gap = []
    · simp [last]
    · simpa using ih false last fun d membership => border d (by simp [membership])

theorem wordsOf_borders {gap : Text} (t : Text) (border : ∀ c ∈ gap, isWordChar c = false) :
    wordsOf (gap ++ t) = wordsOf t := by
  by_cases filled : gap = []
  · rw [filled, List.nil_append]
  · exact wordsFrom_borders false t filled border

theorem wordsOf_of_blank {t : Text} (blank : ∀ c ∈ t, isBlank c = true) : wordsOf t = [] := by
  have nothing := wordsOf_borders [] (border_of_blank blank)
  rwa [List.append_nil] at nothing

theorem wordsFrom_word {w : Text} (t : Text) (spelled : ∀ c ∈ w, isWordChar c = true) :
    wordsFrom true (w ++ t) = wordsFrom true t := by
  induction w with
  | nil => rfl
  | cons c w ih =>
    rw [List.cons_append, wordsFrom, if_pos (spelled c (by simp)), if_pos rfl]
    exact ih fun d membership => spelled d (by simp [membership])

theorem wordsOf_word_append {w t : Text} (spelled : ∀ c ∈ w, isWordChar c = true) (filled : w ≠ [])
    (ends : wordEnds t = true) : wordsOf (w ++ t) = w :: wordsOf t := by
  obtain ⟨c, more, rfl⟩ := List.exists_cons_of_ne_nil filled
  have head : headWord (c :: (more ++ t)) = c :: more := by
    rw [← List.cons_append, headWord_append_of_wordEnds _ ends, headWord_of_word spelled]
  rw [wordsOf, List.cons_append, wordsFrom, if_pos (spelled c (by simp)), if_neg (by simp), head,
    wordsFrom_word t fun d membership => spelled d (by simp [membership]),
    wordsFrom_of_wordEnds ends true false, ← wordsOf]

/-- The word at a place is one of the words of the text, if the place is its beginning. -/
theorem mem_wordsOf_of_split (x y : Text) {before : Option Char} (border : inWord (edge before x) = false)
    (filled : headWord y ≠ []) : headWord y ∈ wordsFrom (inWord before) (x ++ y) := by
  induction x generalizing before with
  | nil =>
    cases y with
    | nil => exact absurd rfl filled
    | cons c rest =>
      rw [edge_nil] at border
      by_cases word : isWordChar c = true
      · simp [wordsFrom, word, border]
      · exact absurd (headWord_cons_of_not_word rest (by simpa using word)) filled
  | cons c x ih =>
    rw [edge_cons] at border
    have later := ih border
    rw [List.cons_append, wordsFrom]
    by_cases word : isWordChar c = true
    · have inside : inWord (some c) = true := by simp [inWord, word]
      rw [inside] at later
      rw [if_pos word]
      split
      · exact later
      · exact List.mem_cons_of_mem _ later
    · have outside : inWord (some c) = false := by simpa [inWord] using word
      rw [outside] at later
      rwa [if_neg word]

/-- A word of a text stands somewhere in it. -/
theorem exists_split_of_mem_wordsFrom {t w : Text} {before : Option Char}
    (membership : w ∈ wordsFrom (inWord before) t) :
    ∃ x y, t = x ++ y ∧ inWord (edge before x) = false ∧ headWord y = w ∧ w ≠ [] := by
  induction t generalizing before with
  | nil => simp [wordsFrom] at membership
  | cons c rest ih =>
    have later : ∀ inside, inside = inWord (some c) → w ∈ wordsFrom inside rest →
        ∃ x y, c :: rest = x ++ y ∧ inWord (edge before x) = false ∧ headWord y = w ∧ w ≠ [] := by
      rintro inside rfl found
      obtain ⟨x, y, rfl, border, word, filled⟩ := ih found
      exact ⟨c :: x, y, rfl, by rwa [edge_cons], word, filled⟩
    rw [wordsFrom] at membership
    split at membership
    next word =>
      have inside : true = inWord (some c) := by simp [inWord, word]
      split at membership
      next => exact later true inside membership
      next border =>
        rcases List.mem_cons.mp membership with rfl | found
        · exact ⟨[], c :: rest, rfl, by simpa using border, rfl, by
            rw [headWord_cons_of_word _ word]
            exact List.cons_ne_nil _ _⟩
        · exact later true inside found
    next noWord => exact later false (by simpa [inWord] using noWord) membership

namespace Rule

variable {r : Rule}

/-- A rule whose matches end where a word ends. Inside a word it matches at the end of that word
at most, and then writes nothing. -/
structure WordWise (r : Rule) : Prop where
  bounded : r.Bounded
  ends : ∀ before first rest, first ≠ [] → r.matched? before (first ++ rest) = some first.length →
    inWord (edge before first) = true ∧ wordEnds rest = true
  begins : ∀ before ahead n, r.matched? before ahead = some n → inWord before = true →
    wordEnds ahead = true ∧ r.replacement = []

/-- A word that has begun goes on as before. -/
theorem Rewrites.headWord_eq (wise : r.WordWise) {before : Option Char} {t out : Text}
    (walk : Rewrites r before t out) (inside : inWord before = true) : headWord out = headWord t := by
  induction walk with
  | nil => rfl
  | @copy before c rest out _ _ ih =>
    by_cases word : isWordChar c = true
    · have goesOn : inWord (some c) = true := by simp [inWord, word]
      rw [headWord_cons_of_word _ word, headWord_cons_of_word _ word, ih goesOn]
    · rw [headWord_cons_of_not_word _ (by simpa using word),
        headWord_cons_of_not_word _ (by simpa using word)]
  | @replace before first rest out filled found _ ih =>
    obtain ⟨border, nothing⟩ := wise.begins _ _ _ found inside
    obtain ⟨lastInside, restEnds⟩ := wise.ends _ _ _ filled found
    rw [nothing, List.nil_append, ih lastInside, wordEnds_iff.mp restEnds, wordEnds_iff.mp border]

/-- The words behind a walk: those the rule writes, and those it found no match at. -/
theorem Rewrites.forall_words (wise : r.WordWise) {P Q : Text → Prop}
    (written : ∀ w ∈ wordsOf r.replacement, P w)
    (kept : ∀ before ahead, inWord before = false → r.matched? before ahead = none →
      Q (headWord ahead) → P (headWord ahead))
    {before : Option Char} {t out : Text} (walk : Rewrites r before t out)
    (given : ∀ w ∈ wordsFrom (inWord before) t, Q w) :
    ∀ w ∈ wordsFrom (inWord before) out, P w := by
  induction walk with
  | nil => simp [wordsFrom]
  | @copy before c rest out unmatched walk ih =>
    by_cases word : isWordChar c = true
    · have inside : inWord (some c) = true := by simp [inWord, word]
      rw [inside] at ih
      have same : headWord (c :: out) = headWord (c :: rest) := by
        rw [headWord_cons_of_word _ word, headWord_cons_of_word _ word,
          walk.headWord_eq wise inside]
      simp only [wordsFrom, word, if_true, same] at given ⊢
      split at given
      next begun =>
        rw [if_pos begun]
        exact ih given
      next border =>
        rw [if_neg border]
        intro w membership
        rcases List.mem_cons.mp membership with rfl | later
        · exact kept before _ (by simpa using border) unmatched (given _ (by simp))
        · exact ih (fun v found => given v (by simp [found])) w later
    · have outside : inWord (some c) = false := by simpa [inWord] using word
      rw [outside] at ih
      simp only [wordsFrom, if_neg word] at given ⊢
      exact ih given
  | @replace before first rest out filled found walk ih =>
    obtain ⟨lastInside, restEnds⟩ := wise.ends _ _ _ filled found
    have outEnds : wordEnds out = true := by
      rw [wordEnds_iff, walk.headWord_eq wise lastInside, wordEnds_iff.mp restEnds]
    rw [lastInside] at ih
    rw [wordsFrom_append _ true _ restEnds] at given
    rw [wordsFrom_append _ true _ outEnds]
    intro w membership
    rcases List.mem_append.mp membership with new | later
    · cases inside : inWord before with
      | true =>
        rw [(wise.begins _ _ _ found inside).2] at new
        simp [wordsFrom] at new
      | false =>
        rw [inside] at new
        exact written w new
    · exact ih (fun v found => given v (List.mem_append_right _ found)) w later

/-- A rule that replaces a word by another wherever it stands on its own. -/
structure Replaces (r : Rule) (w : Text) : Prop where
  searches : r.matched? = wholeWord? w
  filled : w ≠ []
  spelled : ∀ c ∈ w, isWordChar c = true
  writes : r.replacement ≠ []
  written : ∀ c ∈ r.replacement, isWordChar c = true

variable {w : Text}

theorem Replaces.matched?_eq (replaces : r.Replaces w) (before : Option Char) (ahead : Text) :
    r.matched? before ahead =
      if inWord before = false ∧ headWord ahead = w then some w.length else none := by
  rw [replaces.searches, wholeWord?_eq replaces.spelled]

theorem Replaces.matched?_eq_some_iff (replaces : r.Replaces w) {before : Option Char} {ahead : Text}
    {n : Nat} :
    r.matched? before ahead = some n ↔
      inWord before = false ∧ headWord ahead = w ∧ w.length = n := by
  rw [replaces.matched?_eq]
  split
  next both => simp [both]
  next neither =>
    refine iff_of_false (by simp) ?_
    rintro ⟨border, same, -⟩
    exact neither ⟨border, same⟩

theorem Replaces.matched?_eq_none_iff (replaces : r.Replaces w) {before : Option Char}
    {ahead : Text} :
    r.matched? before ahead = none ↔ (inWord before = false → headWord ahead ≠ w) := by
  rw [replaces.matched?_eq]
  split
  next both => simp [both]
  next neither => simpa using neither

/-- What the rule replaces is the word, at its beginning and up to its end. -/
theorem Replaces.of_matched (replaces : r.Replaces w) {before : Option Char} {first rest : Text}
    (found : r.matched? before (first ++ rest) = some first.length) :
    first = w ∧ inWord before = false ∧ wordEnds rest = true := by
  obtain ⟨border, same, length⟩ := replaces.matched?_eq_some_iff.mp found
  obtain ⟨front, ends⟩ := (headWord_eq_iff replaces.spelled).mp same
  obtain ⟨tail, split⟩ := List.isPrefixOf_iff_prefix.mp front
  obtain ⟨rfl, rfl⟩ := List.append_inj split length
  rw [List.drop_left] at ends
  exact ⟨rfl, border, ends⟩

theorem Replaces.wordWise (replaces : r.Replaces w) : r.WordWise where
  bounded := by
    intro before ahead n found
    obtain ⟨-, same, rfl⟩ := replaces.matched?_eq_some_iff.mp found
    refine ⟨List.length_pos_iff.mpr replaces.filled, ?_⟩
    rw [← same]
    exact (List.takeWhile_sublist _).length_le
  ends := by
    intro before first rest filled found
    obtain ⟨rfl, -, ends⟩ := replaces.of_matched found
    refine ⟨?_, ends⟩
    obtain ⟨init, last, rfl⟩ := (List.eq_nil_or_concat first).resolve_left filled
    rw [List.concat_eq_append, edge_concat]
    simp [inWord, replaces.spelled last (by simp)]
  begins := by
    intro before ahead n found inside
    obtain ⟨border, -⟩ := replaces.matched?_eq_some_iff.mp found
    simp [inside] at border

/-- The rule has no match in a text exactly if the word is none of the text's words. -/
theorem Replaces.quiet_iff (replaces : r.Replaces w) {before : Option Char} {t : Text} :
    r.Quiet before t ↔ w ∉ wordsFrom (inWord before) t := by
  constructor
  · intro quiet membership
    obtain ⟨x, y, rfl, border, same, filled⟩ := exists_split_of_mem_wordsFrom membership
    have present : y ≠ [] := by
      rintro rfl
      exact filled same.symm
    exact replaces.matched?_eq_none_iff.mp (quiet x y rfl present) border same
  · rintro missing x y rfl -
    apply replaces.matched?_eq_none_iff.mpr
    intro border same
    have filled : headWord y ≠ [] := by
      rw [same]
      exact replaces.filled
    exact missing (same ▸ mem_wordsOf_of_split x y border filled)

/-- Behind the rule the word is gone, unless the rule writes it. -/
theorem Replaces.not_mem_wordsOf_apply (replaces : r.Replaces w)
    (fresh : w ∉ wordsOf r.replacement) (t : Text) : w ∉ wordsOf (r.apply t) := by
  have walk := rewrites_applyFrom replaces.wordWise.bounded none t
  have others : ∀ v ∈ wordsOf (r.apply t), v ≠ w := by
    refine walk.forall_words replaces.wordWise (Q := fun _ => True) ?_ ?_ (by simp)
    · rintro v membership rfl
      exact fresh membership
    · intro before ahead border unmatched _
      exact replaces.matched?_eq_none_iff.mp unmatched border
  intro membership
  exact others w membership rfl

/-- A rule that does not write a word brings it into no text. -/
theorem WordWise.not_mem_wordsOf_apply (wise : r.WordWise) (fresh : w ∉ wordsOf r.replacement)
    {t : Text} (missing : w ∉ wordsOf t) : w ∉ wordsOf (r.apply t) := by
  have walk := rewrites_applyFrom wise.bounded none t
  have others : ∀ v ∈ wordsOf (r.apply t), v ≠ w := by
    refine walk.forall_words wise (Q := fun v => v ≠ w) ?_ (fun _ _ _ _ given => given) ?_
    · rintro v membership rfl
      exact fresh membership
    · rintro v membership rfl
      exact missing membership
  intro membership
  exact others w membership rfl

theorem Replaces.blocks (replaces : r.Replaces w) {c : Char}
    (border : isWordChar c = false) : r.Blocks c where
  here := by
    intro before rest
    apply replaces.matched?_eq_none_iff.mpr
    intro _ same
    rw [headWord_cons_of_not_word rest border] at same
    exact replaces.filled same.symm
  ahead := by
    intro before x rest _
    rw [replaces.matched?_eq, replaces.matched?_eq,
      headWord_append_of_wordEnds x (wordEnds_cons.mpr border)]
  behind := by
    intro t
    have outside : inWord (some c) = inWord none := by simpa [inWord] using border
    rw [replaces.matched?_eq, replaces.matched?_eq, outside]

/-- At the border of a word a rule on words works on both sides on its own. -/
theorem Replaces.apply_append (replaces : r.Replaces w) (x : Text) {y : Text}
    (ends : wordEnds y = true) : r.apply (x ++ y) = r.apply x ++ r.apply y := by
  cases y with
  | nil => rw [List.append_nil, apply_nil, List.append_nil]
  | cons c y =>
    have cut := apply_append_of_blocks replaces.wordWise.bounded
      (replaces.blocks (wordEnds_cons.mp ends))
    have alone := cut [] y
    rw [List.nil_append, apply_nil, List.nil_append] at alone
    rw [cut, alone]

theorem Replaces.apply_borders (replaces : r.Replaces w) {gap : Text} (y : Text)
    (border : ∀ c ∈ gap, isWordChar c = false) : r.apply (gap ++ y) = gap ++ r.apply y := by
  induction gap with
  | nil => rfl
  | cons c gap ih =>
    have cut := apply_append_of_blocks replaces.wordWise.bounded
      (replaces.blocks (border c (by simp))) [] (gap ++ y)
    rw [List.nil_append, apply_nil, List.nil_append,
      ih fun d membership => border d (by simp [membership])] at cut
    exact cut

theorem Replaces.apply_wordEnds (replaces : r.Replaces w) {t : Text} (ends : wordEnds t = true) :
    wordEnds (r.apply t) = true := by
  cases t with
  | nil => rw [apply_nil]; rfl
  | cons c rest =>
    have border : ∀ d ∈ [c], isWordChar d = false := by simpa using wordEnds_cons.mp ends
    have cut : r.apply ([c] ++ rest) = [c] ++ r.apply rest := replaces.apply_borders rest border
    rw [List.singleton_append] at cut
    rw [cut]
    exact wordEnds_cons.mpr (wordEnds_cons.mp ends)

theorem Rewrites.length_le (replaces : r.Replaces w) (longer : w.length ≤ r.replacement.length)
    {before : Option Char} {t out : Text} (walk : r.Rewrites before t out) :
    t.length ≤ out.length := by
  induction walk with
  | nil => exact Nat.le_refl _
  | copy _ _ ih =>
    rw [List.length_cons, List.length_cons]
    omega
  | replace _ found _ ih =>
    obtain ⟨-, -, length⟩ := replaces.matched?_eq_some_iff.mp found
    rw [List.length_append, List.length_append]
    omega

end Rule

end TypedScript.Lowering
