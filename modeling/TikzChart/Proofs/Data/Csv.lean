import TikzChart.Data.Csv
import TikzChart.Proofs.Text.Glyph
import TikzChart.Proofs.Text.Split

/-!
Spellings of records, and what is read from them. A field stands in a file as it is or in quotes,
a record in one line, and lines end in several ways (`Csv.Spells`); whatever the spelling, the
automaton hands out the records that are spelled. After the text of a field it has the characters of
the field in hand and stands where the field can end; after a line it is ready for the next one.

Written text is one spelling. Hence the records of written text are the written ones, whatever
characters they hold.
-/

set_option autoImplicit false

namespace TikzChart

namespace Csv

/-! ### Texts of fields -/

theorem texts_chars (number : Nat) (fields : List (List Char)) :
    texts number (fields.map (List.map Glyph.char)) = .ok (fields.map String.ofList) := by
  induction fields generalizing number with
  | nil => rfl
  | cons field fields ih =>
      rw [List.map_cons, texts, Glyph.text_read_encode]
      dsimp only
      rw [ih]
      rfl

theorem texts_strings (number : Nat) (fields : List String) :
    texts number ((fields.map String.toList).map (List.map Glyph.char)) = .ok fields := by
  rw [texts_chars, List.map_map]
  simp only [Function.comp_def, String.ofList_toList, List.map_id']

theorem length_texts {number : Nat} {fields : List (List Glyph)} {read : List String}
    (isText : texts number fields = .ok read) : read.length = fields.length := by
  induction fields generalizing number read with
  | nil =>
      cases isText
      rfl
  | cons field fields ih =>
      rw [texts] at isText
      split at isText
      · cases isText
      · split at isText
        · cases isText
        · next rest readRest =>
            cases isText
            rw [List.length_cons, List.length_cons, ih readRest]

/-! ### Spellings -/

/-- The texts of a field: the field itself, if it can do without quotes, and the field in quotes. -/
inductive SpellsField (field : List Char) : List Char → Prop
  | bare (plain : field.any needsQuotes = false := by decide +kernel) : SpellsField field field
  | quoted : SpellsField field ('"' :: doubleQuotes field ++ ['"'])

/-- The texts of a record: those of its fields, with commas between them. -/
inductive SpellsFields : List (List Char) → List Char → Prop
  | last {field text : List Char} (spells : SpellsField field text) : SpellsFields [field] text
  | more {field text rest : List Char} {fields : List (List Char)} (spells : SpellsField field text)
      (spellsRest : SpellsFields fields rest) : SpellsFields (field :: fields) (text ++ ',' :: rest)

def IsLineEnd (c : Char) : Prop := c = '\n' ∨ c = '\r'

/-- The texts of records: every record in a line of its own, which is not empty. Empty lines may
stand anywhere, and the last line need not be ended. -/
inductive Spells : List (List (List Char)) → List Char → Prop
  | nothing : Spells [] []
  | lineEnd {c : Char} {records : List (List (List Char))} {rest : List Char} (ends : IsLineEnd c)
      (spellsRest : Spells records rest) : Spells records (c :: rest)
  | last {fields : List (List Char)} {line : List Char} (spells : SpellsFields fields line)
      (nonempty : line ≠ [] := by decide +kernel) : Spells [fields] line
  | record {c : Char} {fields : List (List Char)} {records : List (List (List Char))}
      {line rest : List Char} (spells : SpellsFields fields line) (ends : IsLineEnd c)
      (spellsRest : Spells records rest) (nonempty : line ≠ [] := by decide +kernel) :
      Spells (fields :: records) (line ++ c :: rest)

/-! ### Reading -/

/-- The place after glyphs. -/
def Spot.afterAll (spot : Spot) (glyphs : List Glyph) : Spot := glyphs.foldl Spot.after spot

/-- A field starts here. -/
def Mode.StartsField (mode : Mode) : Prop := mode = .recordStart ∨ mode = .fieldStart

/-- A field that may have been empty, but not the whole line, can end here. -/
def Mode.EndsField (mode : Mode) : Prop :=
  mode = .fieldStart ∨ mode = .inField ∨ mode = .afterQuote

namespace Reader

variable {mode : Mode} {field : List Glyph} {fields : List (List Glyph)} {start here : Spot}

/-! ### One glyph -/

theorem records_of_take {reader next : Reader} {glyph : Glyph}
    (taken : reader.take glyph = (next, none)) (rest : List Glyph) :
    reader.records (glyph :: rest) = next.records rest := by
  rw [records, taken]

theorem takePlain_of_plain {c : Char} (plain : needsQuotes c = false) (reader : Reader) :
    reader.takePlain (.char c) = (reader.push (.char c), none) := by
  unfold needsQuotes at plain
  simp only [Bool.or_eq_false_iff, beq_eq_false_iff_ne] at plain
  obtain ⟨⟨⟨notComma, _⟩, notReturn⟩, notFeed⟩ := plain
  simp [takePlain, isEnd, notComma, notReturn, notFeed]

theorem take_first {c : Char} (plain : needsQuotes c = false) (starts : mode.StartsField) :
    (⟨mode, [], fields, start, here⟩ : Reader).take (.char c) =
      (⟨.inField, [.char c], fields, start, here.after (.char c)⟩, none) := by
  have first (reader : Reader) : reader.takeFirst (.char c) = (reader.push (.char c), none) := by
    have notQuote : Glyph.char c ≠ .char '"' := by
      intro same
      rw [Glyph.char.inj same] at plain
      cases plain
    unfold takeFirst
    rw [if_neg notQuote, takePlain_of_plain plain]
  have notEnd : isEnd (.char c) = false := by
    unfold needsQuotes at plain
    simp only [Bool.or_eq_false_iff, beq_eq_false_iff_ne] at plain
    simp [isEnd, plain.1.2, plain.2]
  rcases starts with rfl | rfl
  · simp only [take, notEnd, Bool.false_eq_true, ↓reduceIte, first, push]
  · simp only [take, first, push]

theorem take_inField {c : Char} (plain : needsQuotes c = false) :
    (⟨.inField, field, fields, start, here⟩ : Reader).take (.char c) =
      (⟨.inField, .char c :: field, fields, start, here.after (.char c)⟩, none) := by
  simp only [take, takePlain_of_plain plain, push]

theorem take_openingQuote (starts : mode.StartsField) :
    (⟨mode, [], fields, start, here⟩ : Reader).take (.char '"') =
      (⟨.inQuotes, [], fields, start, here.after (.char '"')⟩, none) := by
  rcases starts with rfl | rfl
  · rfl
  · rfl

theorem take_inQuotes {c : Char} (notQuote : c ≠ '"') :
    (⟨.inQuotes, field, fields, start, here⟩ : Reader).take (.char c) =
      (⟨.inQuotes, .char c :: field, fields, start, here.after (.char c)⟩, none) := by
  have differs : Glyph.char c ≠ .char '"' := fun same => notQuote (Glyph.char.inj same)
  simp only [take, if_neg differs, push]

theorem take_comma (ends : mode = .recordStart ∨ mode.EndsField) :
    (⟨mode, field, fields, start, here⟩ : Reader).take (.char ',') =
      (⟨.fieldStart, [], field.reverse :: fields, start, here.after (.char ',')⟩, none) := by
  rcases ends with rfl | rfl | rfl | rfl
  · rfl
  · rfl
  · rfl
  · rfl

/-- Between two lines it makes no difference by which character the first one ended. -/
theorem take_afterReturn (glyph : Glyph) :
    (⟨.afterReturn, field, fields, start, here⟩ : Reader).take glyph =
      (⟨.recordStart, field, fields, start, here⟩ : Reader).take glyph := by
  by_cases feed : glyph = .char '\n'
  · rw [feed]
    rfl
  · by_cases atEnd : isEnd glyph = true
    · simp only [take, if_neg feed, if_pos atEnd]
    · simp only [take, if_neg feed, if_neg atEnd]
      rfl

theorem records_afterReturn (glyphs : List Glyph) :
    (⟨.afterReturn, field, fields, start, here⟩ : Reader).records glyphs =
      (⟨.recordStart, field, fields, start, here⟩ : Reader).records glyphs := by
  cases glyphs with
  | nil => rfl
  | cons glyph rest => rw [records, records, take_afterReturn]

theorem records_emptyLine {c : Char} (ends : IsLineEnd c) (rest : List Glyph) :
    (⟨.recordStart, field, fields, start, here⟩ : Reader).records (.char c :: rest) =
      (⟨.recordStart, field, fields, start, here.after (.char c)⟩ : Reader).records rest := by
  rcases ends with rfl | rfl
  · rfl
  · rfl

theorem records_lineEnd {c : Char} (ends : IsLineEnd c) {reader : Reader}
    (canEnd : reader.mode.EndsField) (rest : List Glyph) :
    ∃ there, reader.records (.char c :: rest) =
      reader.record :: (⟨.recordStart, [], [], there, there⟩ : Reader).records rest := by
  obtain ⟨mode, field, fields, start, here⟩ := reader
  dsimp only at canEnd
  refine ⟨here.after (.char c), ?_⟩
  rcases ends with rfl | rfl
  · rcases canEnd with rfl | rfl | rfl
    · rfl
    · rfl
    · rfl
  · rw [← records_afterReturn]
    rcases canEnd with rfl | rfl | rfl
    · rfl
    · rfl
    · rfl

theorem finish_of_endsField {reader : Reader} (canEnd : reader.mode.EndsField) :
    reader.finish = [reader.record] := by
  rcases canEnd with stands | stands | stands
  · rw [finish, stands]
  · rw [finish, stands]
  · rw [finish, stands]

/-! ### One field -/

theorem records_inField {chars : List Char} (plain : ∀ c ∈ chars, needsQuotes c = false)
    (rest : List Glyph) :
    (⟨.inField, field, fields, start, here⟩ : Reader).records (chars.map .char ++ rest) =
      (⟨.inField, (chars.map .char).reverse ++ field, fields, start,
        here.afterAll (chars.map .char)⟩ : Reader).records rest := by
  induction chars generalizing field here with
  | nil => rfl
  | cons c chars ih =>
      have here : needsQuotes c = false := plain c List.mem_cons_self
      rw [List.map_cons, List.cons_append, records_of_take (take_inField here),
        ih fun other member => plain other (List.mem_cons_of_mem c member),
        List.reverse_cons, List.append_assoc]
      rfl

theorem records_inQuotes (chars : List Char) (rest : List Glyph) :
    (⟨.inQuotes, field, fields, start, here⟩ : Reader).records
        ((doubleQuotes chars).map .char ++ rest) =
      (⟨.inQuotes, (chars.map .char).reverse ++ field, fields, start,
        here.afterAll ((doubleQuotes chars).map .char)⟩ : Reader).records rest := by
  induction chars generalizing field here with
  | nil => rfl
  | cons c chars ih =>
      rw [List.map_cons, List.reverse_cons, List.append_assoc]
      unfold doubleQuotes
      by_cases quote : c = '"'
      · -- The first quote seems to close the field, the second one takes that back.
        rw [if_pos quote, quote, List.map_cons, List.map_cons]
        exact ih
      · rw [if_neg quote, List.map_cons, List.cons_append, records_of_take (take_inQuotes quote)]
        exact ih

variable (fields start here)

/-- After the text of a field the automaton has the field in hand and stands where it can end. An
empty text leaves no trace. -/
theorem records_spelledField (starts : mode.StartsField) {chars text : List Char}
    (spells : SpellsField chars text) (rest : List Glyph) :
    ∃ after there, (after.EndsField ∨ text = [] ∧ after = mode) ∧
      (⟨mode, [], fields, start, here⟩ : Reader).records (text.map .char ++ rest) =
        (⟨after, (chars.map .char).reverse, fields, start, there⟩ : Reader).records rest := by
  cases spells with
  | quoted =>
      let inside := (here.after (.char '"')).afterAll ((doubleQuotes chars).map .char)
      refine ⟨.afterQuote, inside.after (.char '"'), .inl (.inr (.inr rfl)), ?_⟩
      rw [List.cons_append, List.map_cons, List.map_append, List.cons_append,
        List.append_assoc, records_of_take (take_openingQuote starts), records_inQuotes,
        List.append_nil]
      rfl
  | bare noneNeeds =>
      have plain : ∀ c ∈ chars, needsQuotes c = false := fun c member =>
        Bool.eq_false_iff.mpr (List.any_eq_false.mp noneNeeds c member)
      cases chars with
      | nil => exact ⟨mode, here, .inr ⟨rfl, rfl⟩, rfl⟩
      | cons c chars =>
          refine ⟨.inField, here.afterAll ((c :: chars).map .char), .inl (.inr (.inl rfl)), ?_⟩
          rw [List.map_cons, List.cons_append,
            records_of_take (take_first (plain c List.mem_cons_self) starts),
            records_inField fun other member => plain other (List.mem_cons_of_mem c member),
            List.reverse_cons]
          rfl

/-! ### One record -/

/-- After the text of a record its last field can end, and with it the record. A line without a
character would be no record. -/
theorem records_spelledFields {list : List (List Char)} {text : List Char}
    (starts : mode = .fieldStart ∨ mode = .recordStart ∧ text ≠ [])
    (spells : SpellsFields list text) (rest : List Glyph) :
    ∃ reader : Reader, reader.mode.EndsField ∧
      reader.record = ⟨fields.reverse ++ list.map (List.map .char), start⟩ ∧
      (⟨mode, [], fields, start, here⟩ : Reader).records (text.map .char ++ rest) =
        reader.records rest := by
  have startsField : mode.StartsField := starts.symm.imp_left And.left
  induction spells generalizing mode fields here with
  | @last field text spells =>
      obtain ⟨after, there, ends, read⟩ := records_spelledField fields start here startsField
        spells rest
      have canEnd : after.EndsField := by
        rcases ends with ends | ⟨empty, rfl⟩
        · exact ends
        · rcases starts with starts | ⟨_, nonempty⟩
          · exact .inl starts
          · exact absurd empty nonempty
      refine ⟨_, canEnd, ?_, read⟩
      rw [record, List.reverse_reverse, List.reverse_cons]
      rfl
  | @more field text others list spells spellsRest ih =>
      obtain ⟨after, there, ends, read⟩ := records_spelledField fields start here startsField
        spells (.char ',' :: (others.map .char ++ rest))
      have canEnd : after = .recordStart ∨ after.EndsField := by
        rcases ends with ends | ⟨_, rfl⟩
        · exact .inr ends
        · exact startsField.imp_right .inl
      obtain ⟨reader, endsField, holds, readRest⟩ := ih (field.map .char :: fields)
        (there.after (.char ',')) (.inl rfl) (.inr rfl)
      refine ⟨reader, endsField, ?_, ?_⟩
      · rw [holds, List.reverse_cons, List.append_assoc]
        rfl
      · rw [List.map_append, List.map_cons, List.append_assoc, List.cons_append, read,
          records_of_take (take_comma canEnd), List.reverse_reverse]
        exact readRest

/-! ### All records -/

theorem fields_of_spelled {records : List (List (List Char))} {text : List Char}
    (spells : Spells records text) :
    ((⟨.recordStart, [], [], start, here⟩ : Reader).records (text.map .char)).map Record.fields =
      records.map (List.map (List.map .char)) := by
  induction spells generalizing start here with
  | nothing => rfl
  | lineEnd ends spellsRest ih =>
      rw [List.map_cons, records_emptyLine ends]
      exact ih start _
  | last spells nonempty =>
      obtain ⟨reader, canEnd, holds, read⟩ :=
        records_spelledFields [] start here (.inr ⟨rfl, nonempty⟩) spells []
      rw [List.append_nil] at read
      rw [read, Reader.records, finish_of_endsField canEnd, holds]
      rfl
  | @record c fields records line rest spells ends spellsRest nonempty ih =>
      obtain ⟨reader, canEnd, holds, read⟩ :=
        records_spelledFields [] start here (.inr ⟨rfl, nonempty⟩) spells
          (.char c :: rest.map .char)
      obtain ⟨there, readRest⟩ := records_lineEnd ends canEnd (rest.map .char)
      rw [List.map_append, List.map_cons, read, readRest, List.map_cons, List.map_cons,
        ih there there, holds]
      rfl

end Reader

/-- A text whose first field begins with some character begins with it or with a quote, unless empty
lines precede it. -/
theorem Spells.no_mark {c : Char} {chars : List Char} {fields : List (List Char)}
    {records : List (List (List Char))} {text : List Char}
    (spells : Spells (((c :: chars) :: fields) :: records) text) (other : c ≠ '\ufeff') :
    text.head? ≠ some '\ufeff' := by
  have field {text : List Char} (spells : SpellsField (c :: chars) text) (rest : List Char) :
      (text ++ rest).head? ≠ some '\ufeff' := by
    intro marked
    cases spells with
    | bare _ => exact other (Option.some.inj marked)
    | quoted => cases marked
  have line {text : List Char} (spells : SpellsFields ((c :: chars) :: fields) text)
      (rest : List Char) : (text ++ rest).head? ≠ some '\ufeff' := by
    cases spells with
    | last spells => exact field spells rest
    | more spells _ =>
        rw [List.append_assoc]
        exact field spells _
  cases spells with
  | lineEnd ends _ =>
      intro marked
      rcases ends with rfl | rfl
      · cases marked
      · cases marked
  | last spells _ => exact List.append_nil text ▸ line spells []
  | record spells _ _ _ => exact line spells _

/-- Spelled records are read as what they are, unless a byte order mark is at the head of their
text. -/
theorem fields_of_spelled {records : List (List (List Char))} {text : List Char}
    (spells : Spells records text) (noMark : text.head? ≠ some '\uFEFF') :
    (Csv.records (text.map .char)).map Record.fields =
      records.map (List.map (List.map .char)) := by
  have plain : Csv.records (text.map .char) = ({} : Reader).records (text.map .char) := by
    cases text with
    | nil => rfl
    | cons c text =>
        unfold Csv.records
        split
        · next rest same =>
            exact absurd (congrArg some (Glyph.char.inj (List.cons.inj same).1)) noMark
        · rfl
  rw [plain]
  exact Reader.fields_of_spelled {} {} spells

/-! ### Writing -/

theorem spells_writeField (chars : List Char) : SpellsField chars (writeField chars) := by
  unfold writeField
  split
  · exact .quoted
  · next plain => exact .bare (Bool.eq_false_iff.mpr plain)

theorem spells_writeFields (first : List Char) (others : List (List Char)) :
    SpellsFields (first :: others) (Text.joinWith [','] ((first :: others).map writeField)) := by
  induction others generalizing first with
  | nil => exact .last (spells_writeField first)
  | cons second others ih =>
      rw [List.map_cons, List.map_cons, Text.joinWith_cons (List.cons_ne_nil _ _),
        List.append_assoc]
      exact .more (spells_writeField first) (ih second)

theorem joinWith_writeField_ne_nil {first : List Char} {others : List (List Char)}
    (nonempty : first ≠ [] ∨ others ≠ []) :
    Text.joinWith [','] ((first :: others).map writeField) ≠ [] := by
  cases others with
  | nil =>
      rw [List.map_singleton, Text.joinWith, writeField]
      split
      · exact List.cons_ne_nil _ _
      · exact nonempty.resolve_right fun differs => differs rfl
  | cons second others =>
      rw [List.map_cons, List.map_cons, Text.joinWith_cons (List.cons_ne_nil _ _),
        List.append_assoc]
      exact List.append_ne_nil_of_right_ne_nil _ (List.cons_ne_nil _ _)

/-- A record is written as a line, and the line is not empty. -/
theorem spells_writeRecord (first : List Char) (others : List (List Char)) :
    ∃ line, SpellsFields (first :: others) line ∧ line ≠ [] ∧
      writeRecord (first :: others) = line ++ ['\n'] := by
  by_cases nonempty : first ≠ [] ∨ others ≠ []
  · have body := joinWith_writeField_ne_nil nonempty
    refine ⟨_, spells_writeFields first others, body, ?_⟩
    unfold writeRecord
    dsimp only
    rw [List.isEmpty_eq_false_iff.mpr body, if_neg Bool.false_ne_true]
  · -- Two quotes stand for the field that would leave the line empty.
    rw [not_or, Classical.not_not, Classical.not_not] at nonempty
    rw [nonempty.1, nonempty.2]
    exact ⟨['"', '"'], .last .quoted, List.cons_ne_nil _ _, rfl⟩

theorem spells_written {records : List (List (List Char))}
    (nonempty : ∀ fields ∈ records, fields ≠ []) :
    Spells records (records.flatMap writeRecord) := by
  induction records with
  | nil => exact .nothing
  | cons fields records ih =>
      obtain ⟨first, others, rfl⟩ := List.exists_cons_of_ne_nil (nonempty fields List.mem_cons_self)
      obtain ⟨line, spells, notEmpty, written⟩ := spells_writeRecord first others
      rw [List.flatMap_cons, written, List.append_assoc]
      have spellsRest := ih fun other member => nonempty other (List.mem_cons_of_mem _ member)
      exact .record spells (.inl rfl) spellsRest notEmpty

end Csv

end TikzChart
