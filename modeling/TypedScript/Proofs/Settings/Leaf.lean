import TypedScript.Proofs.Files.Path
import TypedScript.Proofs.Outcome
import TypedScript.Proofs.Value.Display
import TypedScript.Proofs.Value.Lookup
import TypedScript.Settings.Basic

set_option autoImplicit false

/-!
Settings leaf by leaf. Each leaf has its place in a mapping and is read from the
value there, whatever the other leaves are. What it is read to is sound, and
something sound is read back from the value it is written as, but for an empty
stem, which is taken for none.
-/

namespace TypedScript

/-- What a value holds under a text, if it is a mapping. -/
def Value.under (key : String) : Value → Value
  | .dict entries => Entries.get key entries
  | _ => .null

theorem Entries.get_of_find? {name : String} {entries : Entries} {value : Value}
    (found : find? (.str name) entries = some value) : get name entries = value := by
  rw [get, found, Option.getD_some]

@[simp]
theorem asked_ok {α : Type} (x : α) : asked (.ok x) = .ok x :=
  rfl

@[simp]
theorem asked_error {α : Type} (e : Raised) : asked (.error e : Except Raised α) = .error (.raised e) :=
  rfl

theorem asked_eq_ok_iff {α : Type} {answer : Except Raised α} {x : α} :
    asked answer = .ok x ↔ answer = .ok x := by
  cases answer <;> simp

/-- A default that is not empty is kept from being so by hollow values alone. -/
theorem textOr_eq_empty_iff {fallback : String} (filled : fallback ≠ "") {value : Value} :
    textOr fallback value = .ok "" ↔ value.IsHollow := by
  unfold textOr Value.IsHollow
  constructor
  · intro read
    obtain ⟨present, answered, read⟩ := exists_ok_of_bind read
    cases present with
    | false => exact absurd (Except.ok.inj read) filled
    | true => exact ⟨asked_eq_ok_iff.mp answered, asked_eq_ok_iff.mp read⟩
  · rintro ⟨truth, text⟩
    rw [truth, text]
    rfl

namespace RunOptions

theorem orDefault_ne_nil (words : List String) : commandOf.orDefault words ≠ [] := by
  unfold commandOf.orDefault
  split
  · simp [defaultCommand]
  · simp_all

theorem commandOf_ne_nil {value : Value} {command : List String}
    (read : commandOf value = .ok command) : command ≠ [] := by
  unfold commandOf at read
  split at read
  · cases read
    exact orDefault_ne_nil _
  · obtain ⟨words, -, rfl⟩ := exists_ok_of_map read
    exact orDefault_ne_nil words
  · obtain ⟨words, -, rfl⟩ := exists_ok_of_map read
    exact orDefault_ne_nil words
  · cases read
    exact orDefault_ne_nil _
  · obtain ⟨words, -, rfl⟩ := exists_ok_of_map read
    exact orDefault_ne_nil _
  · cases read
    simp [defaultCommand]

theorem timeoutOf_not_le {value : Value} {timeout : Option Float}
    (read : timeoutOf value = .ok timeout) : ∀ x ∈ timeout, ¬ x ≤ 0.0 := by
  obtain ⟨seconds, -, read⟩ := exists_ok_of_bind read
  cases seconds with
  | none =>
    cases read
    simp
  | some x =>
    dsimp only at read
    split at read
    · contradiction
    · cases read
      simpa using by assumption

theorem pathOf_normal {value : Value} {path : Path} (named : pathOf value = .ok path) :
    path.Normal := by
  unfold pathOf at named
  split at named
  · cases named
    exact Path.normal_ofText _
  · cases named
    exact Path.normal_ofText _
  · contradiction
  · obtain ⟨name, -, rfl⟩ := exists_ok_of_map named
    exact Path.normal_ofText name
  · contradiction

theorem scratchOf_normal {value : Value} {scratch : Option Path}
    (read : scratchOf value = .ok scratch) : ∀ path ∈ scratch, path.Normal := by
  obtain ⟨unnamed, -, read⟩ := exists_ok_of_bind read
  cases unnamed with
  | true =>
    cases read
    simp
  | false =>
    obtain ⟨path, named, rfl⟩ := exists_ok_of_map read
    simpa using pathOf_normal named

/-- A section that is no mapping is read as one that holds nothing. -/
theorem ofValue_eq (given : Value) :
    ofValue given = do
      let command ← commandOf (given.under "command")
      let timeout ← timeoutOf (given.under "timeout")
      let scratch ← scratchOf (given.under "temp_root")
      let stem ← stemOf (given.under "temp_prefix")
      return ⟨command, timeout, scratch, stem⟩ := by
  cases given <;> rfl

end RunOptions

namespace Settings

theorem suffixOf_dot {value : Value} {suffix : String} (read : suffixOf value = .ok suffix) :
    suffix.toList.head? = some '.' := by
  obtain ⟨text, -, read⟩ := exists_ok_of_bind read
  split at read
  next dot =>
    cases read
    exact dot
  next => contradiction

theorem suffixOfSection_eq (given : Value) :
    suffixOfSection given = suffixOf (given.under "suffix") := by
  cases given <;> rfl

/-- The single settings. -/
inductive Leaf where
  | command
  | timeout
  | scratch
  | stem
  | suffix
  deriving DecidableEq, Repr

namespace Leaf

/-- The section of a mapping that a leaf stands in. -/
def group : Leaf → String
  | .command | .timeout | .scratch | .stem => "runtime"
  | .suffix => "output"

/-- The key of a leaf in its section. -/
def key : Leaf → String
  | .command => "command"
  | .timeout => "timeout"
  | .scratch => "temp_root"
  | .stem => "temp_prefix"
  | .suffix => "suffix"

abbrev Content : Leaf → Type
  | .command => List String
  | .timeout => Option Float
  | .scratch => Option Path
  | .stem | .suffix => String

/-- What settings have at a leaf. -/
def of : (leaf : Leaf) → Settings → leaf.Content
  | .command, s => s.run.command
  | .timeout, s => s.run.timeout
  | .scratch, s => s.run.scratch
  | .stem, s => s.run.stem
  | .suffix, s => s.suffix

def read : (leaf : Leaf) → Value → Except SettingsError leaf.Content
  | .command => RunOptions.commandOf
  | .timeout => RunOptions.timeoutOf
  | .scratch => RunOptions.scratchOf
  | .stem => RunOptions.stemOf
  | .suffix => suffixOf

def write : (leaf : Leaf) → leaf.Content → Value
  | .command, words => .list (words.map .str)
  | .timeout, limit => (limit.map .float).getD .null
  | .scratch, base => (base.map fun path => .str (String.ofList path.text)).getD .null
  | .stem, text | .suffix, text => .str text

/-- What a run, or a compilation, relies on at a leaf. A stem can be any text. -/
def Sound : (leaf : Leaf) → leaf.Content → Prop
  | .command, words => words ≠ []
  | .timeout, limit => ∀ x ∈ limit, ¬ x ≤ 0.0
  | .scratch, base => ∀ path ∈ base, path.Normal
  | .stem, _ => True
  | .suffix, text => text.toList.head? = some '.'

/-- What is read back of a leaf: an empty stem is taken for none. -/
def settled : (leaf : Leaf) → leaf.Content → leaf.Content
  | .stem, text => if text = "" then RunOptions.defaultStem else text
  | .command, words => words
  | .timeout, limit => limit
  | .scratch, base => base
  | .suffix, text => text

theorem sound_of_read {leaf : Leaf} {value : Value} {content : leaf.Content}
    (read : leaf.read value = .ok content) : leaf.Sound content := by
  cases leaf with
  | command => exact RunOptions.commandOf_ne_nil read
  | timeout => exact RunOptions.timeoutOf_not_le read
  | scratch => exact RunOptions.scratchOf_normal read
  | stem => trivial
  | suffix => exact suffixOf_dot read

/-- The value that a leaf is read from; null if there is none, or no section to hold one. -/
def source (leaf : Leaf) (entries : Entries) : Value := (Entries.get leaf.group entries).under leaf.key

end Leaf

theorem ofEntries_eq (entries : Entries) :
    ofEntries entries = do
      let command ← Leaf.command.read (Leaf.command.source entries)
      let timeout ← Leaf.timeout.read (Leaf.timeout.source entries)
      let scratch ← Leaf.scratch.read (Leaf.scratch.source entries)
      let stem ← Leaf.stem.read (Leaf.stem.source entries)
      let suffix ← Leaf.suffix.read (Leaf.suffix.source entries)
      return ⟨⟨command, timeout, scratch, stem⟩, suffix⟩ := by
  simp only [ofEntries, RunOptions.ofValue_eq, suffixOfSection_eq, bind_assoc, pure_bind]
  rfl

/-- A mapping is read leaf by leaf. -/
theorem ofEntries_eq_ok_iff {entries : Entries} {s : Settings} :
    ofEntries entries = .ok s ↔ ∀ leaf : Leaf, leaf.read (leaf.source entries) = .ok (leaf.of s) := by
  rw [ofEntries_eq]
  constructor
  · intro read
    obtain ⟨command, commandRead, read⟩ := exists_ok_of_bind read
    obtain ⟨timeout, timeoutRead, read⟩ := exists_ok_of_bind read
    obtain ⟨scratch, scratchRead, read⟩ := exists_ok_of_bind read
    obtain ⟨stem, stemRead, read⟩ := exists_ok_of_bind read
    obtain ⟨suffix, suffixRead, read⟩ := exists_ok_of_bind read
    cases read
    rintro (_ | _ | _ | _ | _)
    · exact commandRead
    · exact timeoutRead
    · exact scratchRead
    · exact stemRead
    · exact suffixRead
  · intro each
    rw [each .command, each .timeout, each .scratch, each .stem, each .suffix]
    rfl

end Settings
end TypedScript
