import TikzChart.Proofs.Data.Csv
import TikzChart.Proofs.Data.KeyValue
import TikzChart.Proofs.Data.Loading

/-!
The same data in key-value files, one for each series, and in one comma-separated file. Either way
of loading leads to the table of the keys that all series share.

The columns of the comma-separated file grow row by row. After some rows a column is its series
restricted to the keys of these rows, so the order of the rows makes no difference and an empty cell
changes nothing.
-/

set_option autoImplicit false

namespace TikzChart

/-- A series with its name and the texts of its values. -/
structure Source where
  name : String
  data : List Datum
  distinct : (data.map Datum.key).Nodup

namespace Source

def keys (source : Source) : List String := source.data.map Datum.key

def series (source : Source) : Series Binary64 := .ofList (source.data.map Datum.entry)

def named (source : Source) : String × Series Binary64 := (source.name, source.series)

def find? (source : Source) (key : String) : Option Datum :=
  source.data.find? fun datum => key == datum.key

/-- The text of the value under a key, which is empty if there is none. -/
def cell (source : Source) (key : String) : String :=
  match source.find? key with
  | some datum => datum.text
  | none => ""

theorem get?_series (source : Source) (key : String) :
    source.series.get? key = (source.find? key).map Datum.value := by
  have distinct : ((source.data.map Datum.entry).map Prod.fst).Nodup := by
    rw [List.map_map]
    exact source.distinct
  have found (data : List Datum) : (data.map Datum.entry).lookup key =
      (data.find? fun datum => key == datum.key).map Datum.value := by
    induction data with
    | nil => rfl
    | cons datum data ih =>
        rw [List.map_cons, List.lookup_cons, List.find?_cons, ih, Datum.entry]
        cases key == datum.key with
        | true => rfl
        | false => rfl
  rw [series, Series.get?_ofList distinct, found]
  rfl

theorem contains_series (source : Source) (key : String) :
    source.series.contains key = true ↔ key ∈ source.keys := by
  rw [Series.contains, get?_series, Option.isSome_map, find?, List.find?_isSome, keys,
    List.mem_map]
  apply exists_congr
  intro datum
  rw [beq_iff_eq, eq_comm]

theorem get?_series_of_mem (source : Source) {datum : Datum} (member : datum ∈ source.data) :
    source.series.get? datum.key = some datum.value := by
  have isThere : (source.find? datum.key).isSome = true :=
    List.find?_isSome.mpr ⟨datum, member, beq_self_eq_true datum.key⟩
  obtain ⟨found, isFound⟩ := Option.isSome_iff_exists.mp isThere
  have matched := List.find?_some isFound
  have sameKey : datum.key = found.key := beq_iff_eq.mp matched
  cases List.inj_on_of_nodup_map source.distinct member (List.mem_of_find?_eq_some isFound) sameKey
  rw [get?_series, isFound, Option.map_some]

end Source

/-! ### Key-value files -/

/-- A named file that holds the data of a series. -/
def Source.IsIn (source : Source) (workspace : Workspace) (input : String × String) : Prop :=
  input.1 = source.name ∧
    ∃ text : String, workspace.read input.2 = .ok text.toUTF8 ∧
      KeyValue.Spells source.data text.toList

variable {workspace : Workspace} {path : String} {sources : List Source}

theorem loadSeries_spelled {source : Source} {text : String}
    (held : workspace.read path = .ok text.toUTF8)
    (spells : KeyValue.Spells source.data text.toList) :
    loadSeries workspace path = .ok source.series := by
  apply Outcome.bind_eq_ok_iff.mpr
  refine ⟨_, Outcome.mapError_eq_ok_iff.mpr held, ?_⟩
  apply Outcome.bind_eq_ok_iff.mpr
  refine ⟨text.toList, ?_, ?_⟩
  · rw [Glyph.read_toUTF8, Glyph.text_chars]
    rfl
  · exact Outcome.mapError_eq_ok_iff.mpr (KeyValue.read_spelled spells source.distinct)

namespace Table

theorem addKeyValues_spelled {inputs : List (String × String)}
    (held : List.Forall₂ (fun source input => source.IsIn workspace input) sources inputs)
    {data after : DataSet Binary64}
    (added : data.insertAll (sources.map Source.named) = .ok after) :
    addKeyValues workspace data inputs = .ok after := by
  induction held generalizing data with
  | nil =>
      cases added
      rfl
  | @cons source input sources inputs heldFirst held ih =>
      obtain ⟨sameName, text, read, spells⟩ := heldFirst
      obtain ⟨next, inserted, addedRest⟩ := Outcome.bind_eq_ok_iff.mp added
      apply Outcome.bind_eq_ok_iff.mpr
      refine ⟨_, loadSeries_spelled read spells, ?_⟩
      apply Outcome.bind_eq_ok_iff.mpr
      refine ⟨next, ?_, ih addedRest⟩
      rw [sameName]
      exact Outcome.mapError_eq_ok_iff.mpr inserted

/-- The table of the keys that all sources share. -/
def ofSources (sources : List Source) : Table := restricted ⟨sources.map Source.named⟩

theorem insertAll_named (distinct : (sources.map Source.name).Nodup) :
    DataSet.empty.insertAll (sources.map Source.named) = .ok ⟨sources.map Source.named⟩ := by
  apply DataSet.insertAll_of_nodup
  rw [List.map_map]
  exact distinct

theorem ofKeyValues_spelled {inputs : List (String × String)}
    (held : List.Forall₂ (fun source input => source.IsIn workspace input) sources inputs)
    (distinct : (sources.map Source.name).Nodup) :
    ofKeyValues workspace inputs = .ok (ofSources sources) :=
  Outcome.map_eq_ok_iff.mpr
    ⟨_, addKeyValues_spelled held (insertAll_named distinct), rfl⟩

/-! ### Comma-separated files -/

def sourceHeader (sources : List Source) : List String := "key" :: sources.map Source.name

/-- The row of a key. -/
def sourceRow (sources : List Source) (key : String) : List String :=
  key :: sources.map fun source => source.cell key

/-- What the columns hold after the rows of some keys. -/
def columnsAfter (sources : List Source) (keys : List String) : List (Series Binary64) :=
  sources.map fun source => source.series.filterKeys keys.contains

theorem addCell_source (path : String) (row : Nat) (keys : List String) (key : String)
    (source : Source) :
    addCell path row key (source.series.filterKeys keys.contains) (source.cell key) =
      .ok (source.series.filterKeys (keys ++ [key]).contains) := by
  have value := source.get?_series key
  unfold addCell Source.cell
  cases found : source.find? key with
  | none =>
      rw [found, Option.map_none] at value
      rw [Series.filterKeys_concat_of_none keys value]
      rfl
  | some datum =>
      rw [found, Option.map_some] at value
      obtain ⟨nonempty, noBlank⟩ := datum.textIsWord
      have notEmpty : datum.text.isEmpty = false :=
        Bool.eq_false_iff.mpr fun empty => nonempty (by rw [String.isEmpty_iff.mp empty]; rfl)
      dsimp only
      rw [Text.trim_of_no_blank noBlank, notEmpty, if_neg Bool.false_ne_true, datum.reads,
        Series.filterKeys_concat_of_some keys value]

theorem addCells_source (path : String) (row : Nat) (keys : List String) (key : String)
    (sources : List Source) :
    addCells path row key (columnsAfter sources keys) (sourceRow sources key).tail =
      .ok (columnsAfter sources (keys ++ [key])) := by
  unfold sourceRow columnsAfter
  induction sources with
  | nil => rfl
  | cons source sources ih =>
      apply Outcome.bind_eq_ok_iff.mpr
      refine ⟨_, addCell_source path row keys key source, ?_⟩
      apply Outcome.bind_eq_ok_iff.mpr
      exact ⟨_, ih, rfl⟩

theorem addRecords_sources (path : String) (number : Nat) {keys : List String}
    {records : List Csv.Record}
    (spelled : records.map Csv.Record.fields =
      (keys.map (sourceRow sources)).map fun row => (row.map String.toList).map (List.map .char))
    (trimmed : ∀ key ∈ keys, Text.trim key = key) (before : List String) :
    addRecords path (sources.length + 1) number (columnsAfter sources before) records =
      .ok (columnsAfter sources (before ++ keys)) := by
  induction keys generalizing records number before with
  | nil =>
      cases List.map_eq_nil_iff.mp spelled
      rw [List.append_nil]
      rfl
  | cons key keys ih =>
      cases records with
      | nil => cases spelled
      | cons record records =>
          obtain ⟨spelledFirst, spelledRest⟩ := List.cons.inj spelled
          obtain ⟨trimmedFirst, trimmedRest⟩ := List.forall_mem_cons.mp trimmed
          have length : (sourceRow sources key).length = sources.length + 1 := by
            rw [sourceRow, List.length_cons, List.length_map]
          have sameKey : Text.trim ((sourceRow sources key).head?.getD "") = key := trimmedFirst
          have rest := ih (number + 1) spelledRest trimmedRest (before ++ [key])
          rw [List.append_assoc, List.singleton_append, ← length] at rest
          rw [← length]
          refine addRecords_cons spelledFirst ?_ rest
          rw [sameKey]
          exact addCells_source path (number + 1) before key sources

/-- The records of a file for the sources, with a row for each of the keys. -/
def sourceRecords (sources : List Source) (keys : List String) : List (List (List Char)) :=
  (sourceHeader sources :: keys.map (sourceRow sources)).map (List.map String.toList)

theorem columnsAfter_nil (sources : List Source) :
    columnsAfter sources [] = List.replicate sources.length .empty := by
  unfold columnsAfter
  simp only [Series.filterKeys_nil, List.map_const']

/-- Once all keys have had their rows, the columns are the series. -/
theorem columnsAfter_all {keys : List String}
    (all : ∀ source ∈ sources, ∀ key ∈ source.keys, key ∈ keys) :
    columnsAfter sources keys = sources.map Source.series := by
  apply List.map_congr_left
  intro source member
  apply Series.filterKeys_of_contained
  intro key contained
  exact all source member key ((source.contains_series key).mp contained)

theorem ofRecords_sources {records : List Csv.Record} {keys : List String}
    (spelled : records.map Csv.Record.fields =
      (sourceRecords sources keys).map (List.map (List.map .char)))
    (nonempty : sources ≠ []) (distinct : (sources.map Source.name).Nodup)
    (trimmed : ∀ key ∈ keys, Text.trim key = key)
    (all : ∀ source ∈ sources, ∀ key ∈ source.keys, key ∈ keys) :
    ofRecords path records = .ok (ofSources sources) := by
  cases records with
  | nil => cases spelled
  | cons first rest =>
      obtain ⟨header, spelledRest⟩ := List.cons.inj spelled
      rw [List.map_map] at spelledRest
      have added := addRecords_sources path 1 spelledRest trimmed []
      have inserted : DataSet.empty.insertAll
          ((sources.map Source.name).zip (sources.map Source.series)) =
          .ok ⟨sources.map Source.named⟩ := by
        rw [List.zip_map']
        exact insertAll_named distinct
      rw [columnsAfter_nil, List.nil_append, columnsAfter_all all] at added
      refine ofRecords_of_added header (fun empty => nonempty (List.map_eq_nil_iff.mp empty)) ?_
        inserted
      rw [List.length_map]
      exact added

theorem ofCsv_spelled {text : String} {keys : List String}
    (opened : workspace.open path = .ok (.file text.toUTF8))
    (spells : Csv.Spells (sourceRecords sources keys) text.toList)
    (nonempty : sources ≠ []) (distinct : (sources.map Source.name).Nodup)
    (trimmed : ∀ key ∈ keys, Text.trim key = key)
    (all : ∀ source ∈ sources, ∀ key ∈ source.keys, key ∈ keys) :
    ofCsv workspace path = .ok (ofSources sources) := by
  -- The text begins with the word `key`, so nothing is taken for a byte order mark.
  have noMark := spells.no_mark (by decide)
  unfold ofCsv
  rw [opened]
  dsimp only
  rw [Glyph.read_toUTF8]
  exact ofRecords_sources (Csv.fields_of_spelled spells noMark) nonempty distinct trimmed all

theorem mem_keys_ofSources (nonempty : sources ≠ []) (key : String) :
    key ∈ (ofSources sources).keys ↔ ∀ source ∈ sources, key ∈ source.keys := by
  unfold ofSources restricted
  rw [DataSet.mem_commonKeys, and_iff_right fun empty => nonempty (List.map_eq_nil_iff.mp empty),
    List.forall_mem_map]
  exact forall₂_congr fun source _ => source.contains_series key

/-- Under a key that all sources share the table has the value of each of them. -/
theorem get?_ofSources (distinct : (sources.map Source.name).Nodup) {source : Source}
    (member : source ∈ sources) {datum : Datum} (inSource : datum ∈ source.data)
    (shared : datum.key ∈ (ofSources sources).keys) :
    ∃ series, (ofSources sources).data.get? source.name = some series ∧
      series.get? datum.key = some datum.value := by
  let data : DataSet Binary64 := ⟨sources.map Source.named⟩
  have names : data.names.Nodup := by
    unfold DataSet.names
    rw [List.map_map]
    exact distinct
  have held : data.get? source.name = some source.series :=
    DataSet.get?_of_mem names (List.mem_map_of_mem member)
  have contained : data.commonKeys.contains datum.key = true := List.contains_iff_mem.mpr shared
  refine ⟨source.series.filterKeys data.commonKeys.contains, ?_, ?_⟩
  · unfold ofSources restricted
    rw [DataSet.get?_mapSeries, held, Option.map_some]
  · rw [Series.get?_filterKeys, if_pos contained, source.get?_series_of_mem inSource]

end Table

/-- However the data of some series is spelled, in a file for each of them or in one with a row for
each of their keys, it is loaded as the same table: that of the keys that all series share. -/
theorem loaders_agree {sources : List Source} (nonempty : sources ≠ [])
    (distinct : (sources.map Source.name).Nodup)
    {workspace : Workspace} {inputs : List (String × String)}
    (held : List.Forall₂ (fun source input => source.IsIn workspace input) sources inputs)
    {keys : List String} (union : ∀ key, key ∈ keys ↔ ∃ source ∈ sources, key ∈ source.keys)
    {other : Workspace} {path text : String}
    (opened : other.open path = .ok (.file text.toUTF8))
    (spells : Csv.Spells (Table.sourceRecords sources keys) text.toList) :
    ∃ table, Table.ofKeyValues workspace inputs = .ok table ∧
      Table.ofCsv other path = .ok table ∧
      table.names = sources.map Source.name ∧
      (∀ key, key ∈ table.keys ↔ ∀ source ∈ sources, key ∈ source.keys) ∧
      ∀ source ∈ sources, ∀ datum ∈ source.data, datum.key ∈ table.keys →
        ∃ series, table.data.get? source.name = some series ∧
          series.get? datum.key = some datum.value := by
  have trimmed : ∀ key ∈ keys, Text.trim key = key := by
    intro key member
    obtain ⟨source, _, inSource⟩ := (union key).mp member
    obtain ⟨datum, _, rfl⟩ := List.mem_map.mp inSource
    exact Text.trim_of_no_blank datum.keyIsWord.2
  have all : ∀ source ∈ sources, ∀ key ∈ source.keys, key ∈ keys :=
    fun source member key inSource => (union key).mpr ⟨source, member, inSource⟩
  refine ⟨Table.ofSources sources, Table.ofKeyValues_spelled held distinct,
    Table.ofCsv_spelled opened spells nonempty distinct trimmed all, ?_,
    Table.mem_keys_ofSources nonempty,
    fun source member datum inSource => Table.get?_ofSources distinct member inSource⟩
  unfold Table.names Table.ofSources Table.restricted
  rw [DataSet.names_mapSeries, DataSet.names, List.map_map]
  rfl

/-- Times of two series, under a key that needs quotes and one that does not. -/
def gccTime : Datum where
  key := "gcc"
  text := "1.5"
  value := .ofFloat 1.5
  reads := by decide +kernel

def commaTime : Datum where
  key := "a,b"
  text := "2e1"
  value := .ofFloat 20
  reads := by decide +kernel

def endlessTime : Datum where
  key := "gcc"
  text := "inf"
  value := .ofMagnitude false Binary64.infinityMagnitude
  reads := by decide +kernel

def quickTimes : Source := ⟨"quick, new", [gccTime, commaTime], by decide +kernel⟩

def plainTimes : Source := ⟨"plain", [endlessTime], by decide +kernel⟩

def quickText : String := "# times\n\n  a,b\t2e1 of 7\r\ngcc 1.5"

def plainText : String := "  # none\ngcc\tinf\n"

def tableText : String := "key,\"quick, new\",plain\r\n\n\"a,b\",2e1,\rgcc,\"1.5\",inf"

def timesWorkspace : Workspace where
  tree := ⟨[(["quick.dat"], .file quickText.toUTF8), (["plain.dat"], .file plainText.toUTF8),
    (["times.csv"], .file tableText.toUTF8)]⟩

theorem spells_quickText : KeyValue.Spells quickTimes.data quickText.toList := by
  refine ⟨["# times".toList, [], "  a,b\t2e1 of 7\r".toList, "gcc 1.5".toList],
    [none, none, some commaTime, some gccTime], by decide +kernel, by decide +kernel, ?_,
    .swap _ _ _⟩
  have comment : KeyValue.Tells "# times".toList none := .comment [] " times".toList
  have comma : KeyValue.Tells "  a,b\t2e1 of 7\r".toList (some commaTime) :=
    .datum [' ', ' '] ['\t'] " of 7\r".toList commaTime
  have gcc : KeyValue.Tells "gcc 1.5".toList (some gccTime) := .datum [] [' '] [] gccTime
  exact .cons comment (.cons (.blank []) (.cons comma (.cons gcc .nil)))

theorem spells_plainText : KeyValue.Spells plainTimes.data plainText.toList := by
  refine ⟨["  # none".toList, "gcc\tinf".toList, []], [none, some endlessTime, none],
    by decide +kernel, by decide +kernel, ?_, .refl _⟩
  have comment : KeyValue.Tells "  # none".toList none := .comment [' ', ' '] " none".toList
  have endless : KeyValue.Tells "gcc\tinf".toList (some endlessTime) :=
    .datum [] ['\t'] [] endlessTime
  exact .cons comment (.cons endless (.cons (.blank []) .nil))

theorem spells_tableText :
    Csv.Spells (Table.sourceRecords [quickTimes, plainTimes] ["a,b", "gcc"]) tableText.toList := by
  have header : Csv.SpellsFields ["key".toList, "quick, new".toList, "plain".toList]
      ("key".toList ++ ',' :: ('"' :: Csv.doubleQuotes "quick, new".toList ++ ['"'] ++
        ',' :: "plain".toList)) := .more .bare (.more .quoted (.last .bare))
  have comma : Csv.SpellsFields ["a,b".toList, "2e1".toList, []]
      ('"' :: Csv.doubleQuotes "a,b".toList ++ ['"'] ++ ',' :: ("2e1".toList ++ ',' :: [])) :=
    .more .quoted (.more .bare (.last .bare))
  have gcc : Csv.SpellsFields ["gcc".toList, "1.5".toList, "inf".toList]
      ("gcc".toList ++ ',' :: ('"' :: Csv.doubleQuotes "1.5".toList ++ ['"'] ++
        ',' :: "inf".toList)) := .more .bare (.more .quoted (.last .bare))
  have rows := Csv.Spells.record comma (.inr rfl) (.last gcc)
  exact .record header (.inr rfl) (.lineEnd (.inl rfl) (.lineEnd (.inl rfl) rows))

theorem times_agree :
    ∃ table, Table.ofKeyValues timesWorkspace
        [("quick, new", "quick.dat"), ("plain", "plain.dat")] = .ok table ∧
      Table.ofCsv timesWorkspace "times.csv" = .ok table ∧
      table.names = ["quick, new", "plain"] ∧ "gcc" ∈ table.keys ∧ "a,b" ∉ table.keys ∧
      ∃ series, table.data.get? "quick, new" = some series ∧
        series.get? "gcc" = some (.ofFloat 1.5) := by
  have quickKeys : quickTimes.keys = ["gcc", "a,b"] := rfl
  have plainKeys : plainTimes.keys = ["gcc"] := rfl
  have union : ∀ key, key ∈ ["a,b", "gcc"] ↔
      ∃ source ∈ [quickTimes, plainTimes], key ∈ source.keys := by
    intro key
    simp only [List.mem_cons, List.not_mem_nil, or_false, exists_eq_or_imp, exists_eq_left,
      quickKeys, plainKeys]
    grind
  have held : List.Forall₂ (fun source input => Source.IsIn source timesWorkspace input)
      [quickTimes, plainTimes] [("quick, new", "quick.dat"), ("plain", "plain.dat")] :=
    .cons ⟨rfl, quickText, rfl, spells_quickText⟩
      (.cons ⟨rfl, plainText, rfl, spells_plainText⟩ .nil)
  have opened : timesWorkspace.open "times.csv" = .ok (.file tableText.toUTF8) := rfl
  obtain ⟨table, fromKeyValues, fromCsv, names, keys, values⟩ :=
    loaders_agree (List.cons_ne_nil _ _) (by decide) held union opened spells_tableText
  have shared : "gcc" ∈ table.keys := (keys "gcc").mpr (by simp [quickKeys, plainKeys])
  have lacking : "a,b" ∉ table.keys := by
    intro member
    have inPlain := (keys "a,b").mp member plainTimes (by simp)
    simp [plainKeys] at inPlain
  exact ⟨table, fromKeyValues, fromCsv, names, shared, lacking,
    values quickTimes List.mem_cons_self gccTime List.mem_cons_self shared⟩

end TikzChart
