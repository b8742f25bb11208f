import StyleBlock.Proofs.LoadTotals

/-!
What the rest of a load costs: a number that every poll lowers unless it finds nothing to do. The
text of a file is known once the importer, the preprocessors and the options are, and with it the
jobs and the references that are still to come.
-/

namespace StyleBlock

namespace Run

variable {α : Type}

/-- The job of a run. -/
def job : Run α → Job α
  | fresh job => job
  | waiting _ job => job
  | running job => job

/-- How much of a run is left. -/
def left : Run α → Nat
  | fresh job => job.polls + 4
  | waiting _ job => job.polls + 3
  | running job => job.polls + 2

theorem two_le_left (run : Run α) : 2 ≤ run.left := by
  cases run <;> simp only [left] <;> omega

/-- Whether a run waits for a permit that it has not got. -/
def IsQueued (queue : Queue) (run : Run α) : Prop :=
  ∃ ticket, run.ticket? = some ticket ∧ queue.permits.takeUp? ticket = none

/-- What a poll makes of a run: less of it is left, or it waits for its permit as before, or it is
over. -/
theorem poll_cases (queue : Queue) (run : Run α) :
    (∃ later, (run.poll queue).2.2 = .more later ∧ later.job.outcome = run.job.outcome ∧
      later.left < run.left) ∨
    ((run.poll queue).2.2 = .more run ∧ (run.poll queue).1 = queue ∧ run.IsQueued queue) ∨
    (∃ error, (run.poll queue).2.2 = .done (.error error)) ∨
    (run.poll queue).2.2 = .done run.job.outcome := by
  have advanced : ∀ (queue : Queue) (job : Job α),
      (∃ later, (advance queue job).2.2 = .more later ∧ later.job.outcome = job.outcome ∧
        later.left < job.polls + 2) ∨
      (advance queue job).2.2 = .done job.outcome := by
    intro queue job
    unfold advance
    split
    · exact .inr rfl
    · rename_i less equal
      exact .inl ⟨_, rfl, rfl, by simp only [left]; omega⟩
  have started : ∀ (queue : Queue) (job : Job α),
      (start queue job).2.2 = (advance queue job).2.2 := fun _ _ => rfl
  cases run with
  | fresh job =>
    rw [poll]
    split
    · exact .inr (.inr (.inl ⟨_, rfl⟩))
    · split
      · rw [started]
        rcases advanced { queue with permits := ‹Permits› } job with
          ⟨later, step, same, less⟩ | ended
        · exact .inl ⟨later, step, same, Nat.lt_add_right 2 less⟩
        · exact .inr (.inr (.inr ended))
      · exact .inl ⟨_, rfl, rfl, by simp [left]⟩
  | waiting ticket job =>
    rw [poll]
    split
    · rw [started]
      rcases advanced { queue with permits := ‹Permits› } job with ⟨later, step, same, less⟩ | ended
      · exact .inl ⟨later, step, same, Nat.lt_add_right 1 less⟩
      · exact .inr (.inr (.inr ended))
    · exact .inr (.inl ⟨rfl, rfl, ticket, rfl, ‹_›⟩)
  | running job =>
    rw [poll]
    rcases advanced queue job with ⟨later, step, same, less⟩ | ended
    · exact .inl ⟨later, step, same, less⟩
    · exact .inr (.inr (.inr ended))

end Run

/-- What a loader works with and never changes. -/
structure Setting where
  options : Options
  importer : Importer
  preprocessors : List (Dialect × Preprocessor)

def Loader.setting (loader : Loader) : Setting :=
  ⟨loader.options, loader.importer, loader.preprocessors⟩

namespace Setting

variable (setting : Setting)

def preprocessor? (dialect : Dialect) : Option Preprocessor :=
  (setting.preprocessors.find? fun (known, _) => known = dialect).map Prod.snd

/-- The preprocessor that the plain sheet of a file still goes through. -/
def chained? (file : ImportedFile) : Option Preprocessor :=
  if file.dialect = .css || !setting.options.disablePreprocessChaining then
    setting.preprocessor? .css
  else none

/-- The cost of a load that only ends after a failure. -/
def failing : Nat := 3

/-- The cost of the load of a file that cannot be read. -/
def missingCost (id : FileId) : Nat := setting.importer.delay id + failing + 2

def linkCost (target : FileId) : LinkState → Nat
  | .fresh => setting.missingCost target + 2
  | .waiting _ => 1
  | .linked _ => 0
  | .failed _ => 0

def linksCost (links : List (Link × LinkState)) : Nat :=
  (links.map fun (link, state) => setting.linkCost link.target state).sum

/-- The cost of a reference that has not been read. -/
def referenceCost (id : FileId) (statement : ReferenceStatement) : Nat :=
  match statement.parse with
  | .error _ => 0
  | .ok reference =>
    setting.linkCost (setting.importer.identifier (some id) reference.path) .fresh

def buildCost (id : FileId) (contents : String) : Nat :=
  match parseSheet contents (setting.importer.debugIdentifier id) with
  | .error _ => failing
  | .ok sheet => (sheet.references.map (setting.referenceCost id)).sum + failing

/-- The cost of a run and of what follows from its outcome. -/
def runCost (run : Run Processed) (next : Processed → Nat) : Nat :=
  run.left +
    match run.job.outcome with
    | .error _ => failing
    | .ok processed => next processed

def chainingCost (file : ImportedFile) (before : Processed) (run : Run Processed) : Nat :=
  runCost run fun after => setting.buildCost file.identifier (before.chain after).content

def chainCost (file : ImportedFile) (before : Processed) : Nat :=
  match setting.chained? file with
  | none => setting.buildCost file.identifier before.content
  | some preprocessor =>
    setting.chainingCost file before (.fresh (preprocessor
      (setting.importer.fullPath file.identifier) before.content before.sourceMap)) + 1

def preparingCost (file : ImportedFile) (run : Run Processed) : Nat :=
  runCost run fun processed => setting.chainCost file processed

def prepareCost (file : ImportedFile) : Nat :=
  if file.dialect = .css then setting.chainCost file (.unchanged file.contents)
  else
    match setting.preprocessor? file.dialect with
    | none => failing
    | some preprocessor =>
      setting.preparingCost file (.fresh (preprocessor
        (setting.importer.fullPath file.identifier) file.contents none)) + 1

/-- The cost of a file that is there after so many more polls. -/
def importingCost (id : FileId) (left : Nat) : Nat :=
  left + 1 +
    match setting.importer.read id with
    | .error _ => failing
    | .ok file => setting.prepareCost file

def freshCost (id : FileId) : Nat := setting.importingCost id (setting.importer.delay id) + 1

def drainCost : Drain → Nat
  | .fresh => 2
  | .waiting _ => 1

def workCost (id : FileId) : Work → Nat
  | .importing left => setting.importingCost id left
  | .preparing file run => setting.preparingCost file run
  | .chaining file before run => setting.chainingCost file before run
  | .linking assembly => setting.linksCost assembly.links + 2
  | .draining _ drain => drainCost drain

def stageCost (id : FileId) : Stage → Nat
  | .fresh => setting.freshCost id
  | .active _ work => setting.workCost id work
  | .advancing => 0
  | .finished _ => 0
  | .dropped => 0

/-- The cost of what a poll leaves of the work on a file. -/
def stepCost (id : FileId) : WorkStep → Nat
  | .more work => setting.workCost id work
  | .done _ => 0

theorem freshCost_of_error {setting : Setting} {id : FileId} {error : Error}
    (unreadable : setting.importer.read id = .error error) :
    setting.freshCost id = setting.missingCost id := by
  simp only [freshCost, importingCost, missingCost, unreadable]
  omega

end Setting

namespace Loader

/-- What all loads that have begun or can begin still cost. -/
def cost (loader : Loader) : Nat :=
  loader.total loader.setting.stageCost loader.setting.freshCost

theorem SameLoads.setting {loader other : Loader} (same : loader.SameLoads other) :
    other.setting = loader.setting := by
  simp only [Loader.setting, same.options, same.importer, same.preprocessors]

theorem SameLoads.cost {loader other : Loader} (same : loader.SameLoads other) :
    other.cost = loader.cost := by
  rw [Loader.cost, Loader.cost, same.setting, same.total]

theorem cost_setStage {loader : Loader} {id : TaskId} {task : Task}
    (found : loader.tasks[id]? = some task) (stage : Stage) :
    (loader.setStage id stage).cost + loader.setting.stageCost task.file task.stage =
      loader.cost + loader.setting.stageCost task.file stage :=
  total_setStage _ _ found stage

end Loader

end StyleBlock
