import TikzChart.Proofs.CommandLine.Run
import TikzChart.Proofs.Data.Dropping

/-!
The order in which series are dropped. Neighbours among the dropped series can change places, and so
every order of them leads to one table.
-/

set_option autoImplicit false

namespace TikzChart.Options

variable {options : Options} {workspace : Workspace}

theorem ignoreAll_of_perm {names others : List String} (perm : names.Perm others)
    {table last : Table} (consistent : table.IsConsistent)
    (ignored : ignoreAll table names = .ok last) : ignoreAll table others = .ok last := by
  induction perm generalizing table last with
  | nil => exact ignored
  | cons name _ ih =>
      obtain ⟨next, first, rest⟩ := Outcome.bind_eq_ok_iff.mp ignored
      have here := Transform.consistent_of_result (.ignore name) consistent first
      exact Outcome.bind_eq_ok_iff.mpr ⟨next, first, ih here rest⟩
  | swap name other names =>
      by_cases same : other = name
      · subst same
        exact ignored
      obtain ⟨next, first, ignored⟩ := Outcome.bind_eq_ok_iff.mp ignored
      obtain ⟨between, second, rest⟩ := Outcome.bind_eq_ok_iff.mp ignored
      have gives : (Transform.ignore other).Gives _ next := Transform.resultOn_eq_ok_iff.mp first
      have dropped : (Transform.ignore name).Gives next between :=
        Transform.resultOn_eq_ok_iff.mp second
      obtain ⟨left, before, behind⟩ :=
        gives.exchange consistent (fun equal => same (Option.some.inj equal)) dropped
      exact Outcome.bind_eq_ok_iff.mpr ⟨left, Transform.resultOn_eq_ok_iff.mpr before,
        Outcome.bind_eq_ok_iff.mpr ⟨between, Transform.resultOn_eq_ok_iff.mpr behind, rest⟩⟩
  | trans _ _ first second => exact second consistent (first consistent ignored)

theorem load_of_perm {names : List String} (perm : names.Perm options.ignore) {table : Table}
    (loaded : { options with ignore := names }.load workspace = .ok table) :
    options.load workspace = .ok table := by
  rw [load_eq] at loaded ⊢
  obtain ⟨input, isInput, loaded⟩ := Outcome.bind_eq_ok_iff.mp loaded
  obtain ⟨shared, loaded⟩ := Outcome.unless_eq_ok_iff.mp loaded
  obtain ⟨divided, isDivided, loaded⟩ := Outcome.bind_eq_ok_iff.mp loaded
  obtain ⟨sorted, isSorted, loaded⟩ := Outcome.bind_eq_ok_iff.mp loaded
  obtain ⟨left, isLeft, loaded⟩ := Outcome.bind_eq_ok_iff.mp loaded
  -- the table that series are dropped from is consistent
  have consistent : input.IsConsistent :=
    (isInput ▸ { options with ignore := names }.early_input workspace).holds_of_ok
  have consistent : divided.IsConsistent :=
    (isDivided ▸ early_wanted _ (fun _ => rfl) consistent).holds_of_ok
  have consistent : sorted.IsConsistent :=
    (isSorted ▸ early_wanted _ (fun _ => rfl) consistent).holds_of_ok
  have ignored := ignoreAll_of_perm perm consistent (Outcome.mapError_eq_ok_iff.mp isLeft)
  refine Outcome.bind_eq_ok_iff.mpr ⟨input, isInput, Outcome.unless_eq_ok_iff.mpr ⟨shared, ?_⟩⟩
  refine Outcome.bind_eq_ok_iff.mpr ⟨divided, isDivided, ?_⟩
  refine Outcome.bind_eq_ok_iff.mpr ⟨sorted, isSorted, ?_⟩
  exact Outcome.bind_eq_ok_iff.mpr ⟨left, Outcome.mapError_eq_ok_iff.mpr ignored, loaded⟩

end Options

/-- Dropping a series commutes with every transform that does not name it: what comes out when it is
dropped behind the transform comes out when it is dropped in front of it, too. So the order of the
series to ignore decides neither whether a table is loaded nor which one. -/
theorem dropping_commutes :
    (∀ (table : Table) (transform : Transform) (name : String), table.IsReachable →
      transform.series? ≠ some name → ∀ last : Table,
        (do let next ← transform.step.resultOn table; next.ignore name) = .ok last →
        (do let left ← table.ignore name; transform.step.resultOn left) = .ok last) ∧
    ∀ (options : Options) (workspace : Workspace) (names : List String),
      names.Perm options.ignore → ∀ table : Table,
        { options with ignore := names }.load workspace = .ok table ↔
          options.load workspace = .ok table := by
  refine ⟨?_, ?_⟩
  · intro table transform name reachable spares last ran
    obtain ⟨next, first, second⟩ := Outcome.bind_eq_ok_iff.mp ran
    have gives := Transform.resultOn_eq_ok_iff.mp first
    have dropped : (Transform.ignore name).Gives next last :=
      Transform.resultOn_eq_ok_iff.mp second
    obtain ⟨left, before, behind⟩ := gives.exchange reachable.consistent spares dropped
    exact Outcome.bind_eq_ok_iff.mpr ⟨left, Transform.resultOn_eq_ok_iff.mpr before,
      Transform.resultOn_eq_ok_iff.mpr behind⟩
  · intro options workspace names perm table
    constructor
    · exact Options.load_of_perm perm
    · intro loaded
      exact @Options.load_of_perm { options with ignore := names } _ _ perm.symm _ loaded

/-- A table of three runs. -/
def tripled : Workspace :=
  { tree := ⟨[(["runs.csv"], .file "key,base,old,new\ngcc,2,4,1\n".toUTF8)]⟩ }

def tripledTable : Table :=
  { keys := ["gcc"]
    data := ⟨[("base", .ofList [("gcc", .ofFloat 2)]), ("old", .ofList [("gcc", .ofFloat 4)]),
      ("new", .ofList [("gcc", .ofFloat 1)])]⟩ }

/-- One series is dropped around a division by another one, and two are dropped in either order. -/
theorem tripledTable_dropped :
    tripledTable.IsReachable ∧
    (do let left ← tripledTable.ignore "new"; left.normalize "base") = .ok
      { keys := ["gcc"]
        data := ⟨[("base", .ofList [("gcc", .ofFloat 1)]),
          ("old", .ofList [("gcc", .ofFloat 2)])]⟩ } ∧
    { table := some "runs.csv", noMean := true, ignore := ["new", "base"] : Options }.load tripled =
      .ok { keys := ["gcc"], data := ⟨[("old", .ofList [("gcc", .ofFloat 4)])]⟩ } := by
  have loaded : tripledTable.IsLoaded := ⟨tripled, .inl ⟨"runs.csv", by decide +kernel⟩⟩
  have reachable : tripledTable.IsReachable := .of_loaded loaded []
  refine ⟨reachable, ?_, ?_⟩
  · exact dropping_commutes.1 tripledTable (.normalize "base") "new" reachable (by decide) _
      (by decide +kernel)
  · exact (dropping_commutes.2
      { table := some "runs.csv", noMean := true, ignore := ["base", "new"] } tripled
      ["new", "base"] (.swap _ _ []) _).mpr (by decide +kernel)

end TikzChart
