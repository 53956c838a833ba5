import TikzChart.Data.KeyValue
import TikzChart.Proofs.Data.Series
import TikzChart.Proofs.Text.Pieces

/-!
The grammar of the key-value form. A text fits if each of its lines does, and a line that has fields
fits if there are two or more and the second is a number. Reading accepts exactly the texts that fit
and takes the last value of each key; of any other text it reports the first line that does not fit
(`KeyValue.read_accepts_grammar`).
-/

set_option autoImplicit false

namespace TikzChart

/-- What the first message has behind the number of the line. -/
def KeyValueError.problem : KeyValueError → String
  | missingField _ => "expected `key value`"
  | badValue _ text _ => "bad value '" ++ text ++ "'"

namespace KeyValue

/-! ### Fields -/

/-- The fields of a line that is neither blank nor a comment. -/
def HasFields (line : List Char) (fields : List (List Char)) : Prop :=
  ∃ content, Text.Trims line content ∧ content ≠ [] ∧ content.head? ≠ some '#' ∧
    Text.HasWords content fields

/-- A line has a key and a number behind it, or it has no fields. -/
def Fits (line : List Char) : Prop :=
  ∀ fields, HasFields line fields → ∃ key text others value, fields = key :: text :: others ∧
    Numeral.read (String.ofList text) = .ok value

/-- A line has the key and the value of an entry in its first two fields. -/
def Gives (line : List Char) (entry : String × Binary64) : Prop :=
  ∃ key text others, HasFields line (key :: text :: others) ∧ String.ofList key = entry.1 ∧
    Numeral.read (String.ofList text) = .ok entry.2

/-- What is wrong with the line of a number. -/
inductive Offends (number : Nat) (line : List Char) : KeyValueError → Prop
  | missingField {fields : List (List Char)} (has : HasFields line fields)
      (few : fields.length < 2) : Offends number line (.missingField number)
  | badValue {key text : List Char} {others : List (List Char)} {cause : NumeralError}
      (has : HasFields line (key :: text :: others))
      (noNumber : Numeral.read (String.ofList text) = .error cause) :
      Offends number line (.badValue number (String.ofList text) cause)

/-- Lines with the same first two fields, or both without fields. -/
def SameStart (line other : List Char) : Prop :=
  ∀ start, (∃ fields, HasFields line fields ∧ fields.take 2 = start) ↔
    ∃ fields, HasFields other fields ∧ fields.take 2 = start

variable {line : List Char} {fields : List (List Char)} {number : Nat} {cause : KeyValueError}

theorem hasFields_iff : HasFields line fields ↔
    Text.trimChars line ≠ [] ∧ (Text.trimChars line).head? ≠ some '#' ∧
      Text.words (Text.trimChars line) = fields := by
  simp only [HasFields, Text.trims_iff, Text.hasWords_iff]
  constructor
  · rintro ⟨content, rfl, nonempty, noMark, words⟩
    exact ⟨nonempty, noMark, words⟩
  · rintro ⟨nonempty, noMark, words⟩
    exact ⟨_, rfl, nonempty, noMark, words⟩

theorem HasFields.unique {others : List (List Char)} (has : HasFields line fields)
    (alsoHas : HasFields line others) : fields = others :=
  (hasFields_iff.mp has).2.2.symm.trans (hasFields_iff.mp alsoHas).2.2

/-! ### Lines -/

/-- What is read from the fields of a line. -/
def readFields (number : Nat) :
    List (List Char) → Except KeyValueError (Option (String × Binary64))
  | key :: text :: _ =>
    match Numeral.read (String.ofList text) with
    | .ok value => .ok (some (String.ofList key, value))
    | .error cause => .error (.badValue number (String.ofList text) cause)
  | _ => .error (.missingField number)

theorem readFields_take (number : Nat) (fields : List (List Char)) :
    readFields number (fields.take 2) = readFields number fields := by
  match fields with
  | [] => rfl
  | [_] => rfl
  | _ :: _ :: _ => rfl

theorem readLine_of_fields (has : HasFields line fields) (number : Nat) :
    readLine number line = readFields number fields := by
  obtain ⟨nonempty, noMark, rfl⟩ := hasFields_iff.mp has
  unfold readLine
  dsimp only
  rw [List.isEmpty_eq_false_iff.mpr nonempty, beq_eq_false_iff_ne.mpr noMark, Bool.or_false,
    if_neg Bool.false_ne_true]
  rfl

theorem readLine_of_silent (silent : ∀ fields, ¬HasFields line fields) (number : Nat) :
    readLine number line = .ok none := by
  unfold readLine
  dsimp only
  split
  · rfl
  · next noSkip =>
      rw [Bool.or_eq_true, not_or, List.isEmpty_iff, beq_iff_eq] at noSkip
      exact absurd (hasFields_iff.mpr ⟨noSkip.1, noSkip.2, rfl⟩) (silent _)

/-- What is read from a line: nothing if it has no fields, an entry or an error. -/
inductive IsRead (number : Nat) (line : List Char) :
    Except KeyValueError (Option (String × Binary64)) → Prop
  | silent (silent : ∀ fields, ¬HasFields line fields) : IsRead number line (.ok none)
  | gives {entry : String × Binary64} (gives : Gives line entry) :
      IsRead number line (.ok (some entry))
  | offends {cause : KeyValueError} (offends : Offends number line cause) :
      IsRead number line (.error cause)

theorem isRead_readLine (number : Nat) (line : List Char) :
    IsRead number line (readLine number line) := by
  by_cases silent : ∃ fields, HasFields line fields
  · obtain ⟨fields, has⟩ := silent
    rw [readLine_of_fields has]
    match fields with
    | [] => exact .offends (.missingField has Nat.zero_lt_two)
    | [_] => exact .offends (.missingField has Nat.one_lt_two)
    | key :: text :: others =>
        rw [readFields]
        cases parsed : Numeral.read (String.ofList text) with
        | ok value => exact .gives ⟨key, text, others, has, rfl, parsed⟩
        | error cause => exact .offends (.badValue has parsed)
  · have silent := not_exists.mp silent
    rw [readLine_of_silent silent]
    exact .silent silent

theorem readLine_of_offends (offends : Offends number line cause) :
    readLine number line = .error cause := by
  cases offends with
  | @missingField fields has few =>
      rw [readLine_of_fields has]
      match fields with
      | [] => rfl
      | [_] => rfl
      | _ :: _ :: _ => exact absurd few (by simp)
  | badValue has noNumber => rw [readLine_of_fields has, readFields, noNumber]

theorem readLine_eq_iff {result : Except KeyValueError (Option (String × Binary64))} :
    readLine number line = result ↔ IsRead number line result := by
  constructor
  · rintro rfl
    exact isRead_readLine number line
  · intro isRead
    cases isRead with
    | silent silent => exact readLine_of_silent silent number
    | gives gives =>
        obtain ⟨key, text, others, has, isKey, isNumber⟩ := gives
        rw [readLine_of_fields has, readFields, isNumber, isKey]
    | offends offends => exact readLine_of_offends offends

theorem readLine_eq_none_iff :
    readLine number line = .ok none ↔ ∀ fields, ¬HasFields line fields :=
  readLine_eq_iff.trans ⟨fun (.silent silent) => silent, .silent⟩

theorem readLine_eq_some_iff {entry : String × Binary64} :
    readLine number line = .ok (some entry) ↔ Gives line entry :=
  readLine_eq_iff.trans ⟨fun (.gives gives) => gives, .gives⟩

theorem readLine_eq_error_iff :
    readLine number line = .error cause ↔ Offends number line cause :=
  readLine_eq_iff.trans ⟨fun (.offends offends) => offends, .offends⟩

theorem not_fits_of_offends (offends : Offends number line cause) : ¬Fits line := by
  intro fits
  cases offends with
  | missingField has few =>
      obtain ⟨key, text, others, value, rfl, -⟩ := fits _ has
      exact absurd few (by simp)
  | badValue has noNumber =>
      obtain ⟨key, text, others, value, same, isNumber⟩ := fits _ has
      cases same
      rw [noNumber] at isNumber
      cases isNumber

theorem fits_of_readLine {said : Option (String × Binary64)}
    (read : readLine number line = .ok said) : Fits line := by
  intro fields has
  cases said with
  | none => exact absurd has (readLine_eq_none_iff.mp read fields)
  | some entry =>
      obtain ⟨key, text, others, alsoHas, isKey, isNumber⟩ := readLine_eq_some_iff.mp read
      exact ⟨key, text, others, entry.2, has.unique alsoHas, isNumber⟩

/-- The entry of a line. -/
def entryOf (line : List Char) : Option (String × Binary64) := (readLine 0 line).toOption.join

theorem entryOf_eq_some_iff {entry : String × Binary64} :
    entryOf line = some entry ↔ Gives line entry := by
  rw [← @readLine_eq_some_iff line 0, entryOf]
  cases readLine 0 line with
  | error cause => exact iff_of_false nofun nofun
  | ok said => exact ⟨congrArg Except.ok, Except.ok.inj⟩

theorem entryOf_of_readLine {said : Option (String × Binary64)}
    (read : readLine number line = .ok said) : entryOf line = said := by
  cases said with
  | none =>
      have silent := readLine_eq_none_iff.mp read
      rw [entryOf, readLine_eq_none_iff.mpr silent]
      rfl
  | some entry => exact entryOf_eq_some_iff.mpr (readLine_eq_some_iff.mp read)

/-- Whether a line can be read, and what it gives, do not depend on its number. -/
theorem readLine_eq_ok_iff {said : Option (String × Binary64)} :
    readLine number line = .ok said ↔ Fits line ∧ entryOf line = said := by
  constructor
  · exact fun read => ⟨fits_of_readLine read, entryOf_of_readLine read⟩
  · rintro ⟨fits, rfl⟩
    cases read : readLine number line with
    | error cause => exact absurd fits (not_fits_of_offends (readLine_eq_error_iff.mp read))
    | ok said => rw [entryOf_of_readLine read]

/-- The fields behind the first two are not read. -/
theorem readLine_of_sameStart {other : List Char} (same : SameStart line other) (number : Nat) :
    readLine number line = readLine number other := by
  by_cases silent : ∃ fields, HasFields line fields
  · obtain ⟨fields, has⟩ := silent
    obtain ⟨otherFields, otherHas, sameTwo⟩ := (same _).mp ⟨fields, has, rfl⟩
    rw [readLine_of_fields has, readLine_of_fields otherHas, ← readFields_take, ← sameTwo,
      readFields_take]
  · have otherSilent : ∀ fields, ¬HasFields other fields := by
      intro fields has
      obtain ⟨found, isFound, -⟩ := (same _).mpr ⟨fields, has, rfl⟩
      exact silent ⟨found, isFound⟩
    rw [readLine_of_silent (not_exists.mp silent), readLine_of_silent otherSilent]

/-! ### Texts -/

variable {lines : List (List Char)}

theorem readLines_eq_ok_iff {before after : Series Binary64} :
    readLines before number lines = .ok after ↔ (∀ line ∈ lines, Fits line) ∧
      (lines.filterMap entryOf).foldl (fun series entry => series.insert entry.1 entry.2) before =
        after := by
  induction lines generalizing before number with
  | nil =>
      rw [readLines, Except.ok.injEq]
      exact (and_iff_right (List.forall_mem_nil _)).symm
  | cons line lines ih =>
      rw [List.forall_mem_cons, List.filterMap_cons, readLines]
      cases read : readLine number line with
      | error cause =>
          have offends := readLine_eq_error_iff.mp read
          exact iff_of_false nofun fun sound => not_fits_of_offends offends sound.1.1
      | ok said =>
          obtain ⟨fits, isSaid⟩ := readLine_eq_ok_iff.mp read
          rw [isSaid, and_iff_right fits]
          cases said with
          | none => exact ih
          | some entry => exact ih

/-- The first of the lines that does not fit has a fault. -/
def FirstOffends (number : Nat) (lines : List (List Char)) (cause : KeyValueError) : Prop :=
  ∃ front line behind, lines = front ++ line :: behind ∧ (∀ earlier ∈ front, Fits earlier) ∧
    Offends (number + front.length) line cause

theorem not_firstOffends_nil : ¬FirstOffends number [] cause := by
  rintro ⟨front, line, behind, split, -⟩
  exact List.append_ne_nil_of_right_ne_nil front (List.cons_ne_nil line behind) split.symm

theorem firstOffends_cons_of_offends {found : KeyValueError} (offends : Offends number line found) :
    FirstOffends number (line :: lines) cause ↔ found = cause := by
  constructor
  · rintro ⟨front, other, behind, split, fit, otherOffends⟩
    cases front with
    | nil =>
        cases split
        exact Except.error.inj
          ((readLine_of_offends offends).symm.trans (readLine_of_offends otherOffends))
    | cons earlier front =>
        cases split
        exact absurd (fit line List.mem_cons_self) (not_fits_of_offends offends)
  · rintro rfl
    exact ⟨[], line, lines, rfl, List.forall_mem_nil _, offends⟩

theorem firstOffends_cons_of_fits (fits : Fits line) :
    FirstOffends number (line :: lines) cause ↔ FirstOffends (number + 1) lines cause := by
  have later (front : List (List Char)) :
      number + (line :: front).length = number + 1 + front.length := by
    rw [List.length_cons]
    omega
  constructor
  · rintro ⟨front, other, behind, split, fit, offends⟩
    cases front with
    | nil =>
        cases split
        exact absurd fits (not_fits_of_offends offends)
    | cons earlier front =>
        cases split
        rw [later] at offends
        exact ⟨front, other, behind, rfl, (List.forall_mem_cons.mp fit).2, offends⟩
  · rintro ⟨front, other, behind, rfl, fit, offends⟩
    refine ⟨line :: front, other, behind, rfl, List.forall_mem_cons.mpr ⟨fits, fit⟩, ?_⟩
    rwa [later]

/-- Reading stops at the first line that does not fit. -/
theorem readLines_eq_error_iff {before : Series Binary64} :
    readLines before number lines = .error cause ↔ FirstOffends number lines cause := by
  induction lines generalizing before number with
  | nil => exact iff_of_false nofun not_firstOffends_nil
  | cons line lines ih =>
      rw [readLines]
      cases read : readLine number line with
      | error found =>
          rw [firstOffends_cons_of_offends (readLine_eq_error_iff.mp read)]
          exact ⟨Except.error.inj, congrArg Except.error⟩
      | ok said =>
          rw [firstOffends_cons_of_fits (readLine_eq_ok_iff.mp read).1]
          cases said with
          | none => exact ih
          | some entry => exact ih

theorem readLines_of_sameStart {others : List (List Char)}
    (same : List.Forall₂ SameStart lines others) (before : Series Binary64) (number : Nat) :
    readLines before number lines = readLines before number others := by
  induction same generalizing before number with
  | nil => rfl
  | cons first rest ih => simp only [readLines, readLine_of_sameStart first, ih]

/-- The last of the lines that gives an entry of the key. -/
def IsLastEntry (lines : List (List Char)) (key : String) (value : Binary64) : Prop :=
  ∃ before line behind, lines = before ++ line :: behind ∧ Gives line (key, value) ∧
    ∀ later ∈ behind, ∀ other, ¬Gives later (key, other)

theorem Offends.head?_chain (offends : Offends number line cause) :
    cause.chain.head? = some ("line " ++ toString number ++ ": " ++ cause.problem) := by
  cases offends with
  | missingField has few =>
      have parts : ": expected `key value`" = ": " ++ "expected `key value`" := by decide
      rw [KeyValueError.chain, KeyValueError.problem, List.head?_cons, parts]
      simp only [String.append_assoc]
  | badValue has noNumber =>
      have parts : ": bad value '" = ": " ++ "bad value '" := by decide
      rw [KeyValueError.chain, KeyValueError.problem, List.head?_cons, parts]
      simp only [String.append_assoc]

/-- A text is accepted exactly if each of its lines fits. Each key then has the value on the last
line that gives it one, and no field behind the second of a line makes a difference. Of a text that
is not accepted the first line that does not fit is reported, by its number among all lines. -/
theorem read_accepts_grammar (text : List Char) :
    ∃ lines, Text.HasLines text lines ∧
      ((∃ series, read text = .ok series) ↔ ∀ line ∈ lines, Fits line) ∧
      (∀ series, read text = .ok series →
        ∀ key value, series.get? key = some value ↔ IsLastEntry lines key value) ∧
      (∀ other otherLines, Text.HasLines other otherLines →
        List.Forall₂ SameStart lines otherLines → read other = read text) ∧
      ∀ cause, read text = .error cause ↔ ∃ before line behind, lines = before ++ line :: behind ∧
        (∀ earlier ∈ before, Fits earlier) ∧ Offends (before.length + 1) line cause ∧
        cause.chain.head? =
          some ("line " ++ toString (before.length + 1) ++ ": " ++ cause.problem) := by
  have hasLines : Text.HasLines text (Text.lines text) := Text.hasLines_iff.mpr rfl
  refine ⟨_, hasLines, ?_, ?_, ?_, ?_⟩
  · constructor
    · rintro ⟨series, accepted⟩
      exact (readLines_eq_ok_iff.mp accepted).1
    · intro fit
      exact ⟨_, readLines_eq_ok_iff.mpr ⟨fit, rfl⟩⟩
  · intro series accepted key value
    obtain ⟨-, rfl⟩ := readLines_eq_ok_iff.mp accepted
    refine Series.get?_ofList_filterMap.trans ?_
    simp only [entryOf_eq_some_iff, Ne]
    exact Iff.rfl
  · intro other otherLines otherHas same
    rw [← Text.hasLines_iff.mp otherHas] at same
    exact (readLines_of_sameStart same .empty 1).symm
  · intro cause
    refine readLines_eq_error_iff.trans ?_
    unfold FirstOffends
    simp only [Nat.add_comm 1]
    constructor
    · rintro ⟨before, line, behind, split, fit, offends⟩
      exact ⟨before, line, behind, split, fit, offends, offends.head?_chain⟩
    · rintro ⟨before, line, behind, split, fit, offends, -⟩
      exact ⟨before, line, behind, split, fit, offends⟩

/-- The last line needs no end, and lines without fields count. -/
example : read " b 1 x\r\n\r\n\t# c\nb 2\nd".toList = .error (.missingField 5) := by
  decide +kernel

end KeyValue

end TikzChart
