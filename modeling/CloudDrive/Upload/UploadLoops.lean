import CloudDrive.Foundation.Execution
import CloudDrive.Upload.ChunkedUpload

/-! # One loop for each upload task

The queue, the replies to requests and the clicks of the user on one task of
`frontend/src/stores/uploadStore.ts`. Pausing sets a flag that a loop reads between two
chunks, and continuing starts a loop without knowing whether the last one has stopped. -/

namespace CloudDrive

open Execution

namespace UploadLoop

open ChunkedUpload (UploadStatus SessionInfo chunkRetryLimit)

/-! ## The task -/

/-- What the loop reads of a `File`. -/
structure File where
  size : Nat
  deriving DecidableEq

/-- `CHUNKED_UPLOAD_THRESHOLD`. -/
def chunkedUploadThreshold : Nat := 100 * 1024 * 1024

/-- The locals of `runChunkedUpload` and `_putChunkWithRetry` between two awaits. -/
structure Sending where
  sessionId : Uuid
  totalChunks : Nat
  done : List Nat
  index : Nat
  attempt : Nat
  deriving DecidableEq

/-- The request, or the pause before a retry, that a loop awaits. -/
inductive Phase where
  | creating
  | reading (sessionId : Uuid)
  | putting (sending : Sending)
  | backingOff (sending : Sending)
  | completing (sessionId : Uuid)
  | ended
  deriving DecidableEq

/-- One call of `runChunkedUpload`, with the controller whose signal it passes on. -/
structure Loop where
  controller : Nat
  phase : Phase
  deriving DecidableEq

inductive Mark where
  | completeCalled (sessionId : Uuid)
  | completeAnswered (sessionId : Uuid) (ok : Bool)
  | completed
  | failed
  deriving DecidableEq

/-- The task of the store with all the loops started for it. The marks are newest first. -/
structure Task where
  file : Option File
  size : Nat
  status : UploadStatus
  controller : Nat
  aborted : List Nat
  sessionId : Option Uuid
  loops : List Loop
  marks : List Mark
  deriving DecidableEq

/-- A task that `admitTasks` has queued. -/
def Task.added (file : File) : Task where
  file := some file
  size := file.size
  status := .queued
  controller := 0
  aborted := []
  sessionId := none
  loops := []
  marks := []

/-- A task of `addRestoredTasks`. -/
def Task.restored (sessionId : Uuid) (size : Nat) : Task where
  file := none
  size := size
  status := .needsFile
  controller := 0
  aborted := []
  sessionId := some sessionId
  loops := []
  marks := []

inductive Initial : Task → Prop
  | added (file : File) : Initial (.added file)
  | restored (sessionId : Uuid) (size : Nat) : Initial (.restored sessionId size)

namespace Task

/-! ## The store -/

def note (mark : Mark) (task : Task) : Task :=
  { task with marks := mark :: task.marks }

def markUploading (task : Task) : Task :=
  { task with status := .uploading }

def markPaused (task : Task) : Task :=
  { task with status := .paused }

def markCompleted (task : Task) : Task :=
  { task with status := .completed }.note .completed

def markFailed (task : Task) : Task :=
  { task with status := .failed }.note .failed

def setSessionInfo (sessionId : Uuid) (task : Task) : Task :=
  { task with sessionId := some sessionId }

def attachFile (file : File) (task : Task) : Task :=
  { task with file := some file, size := file.size }

def cancelTask (task : Task) : Task :=
  { task with aborted := task.controller :: task.aborted, status := .canceled }

/-! ## The loops -/

def setPhase (position : Nat) (loop : Loop) (phase : Phase) (task : Task) : Task :=
  { task with loops := task.loops.set position { loop with phase := phase } }

/-- The first index from `index` on that is not in `done`. -/
def nextGap (sending : Sending) : Option Nat :=
  (List.range' sending.index (sending.totalChunks - sending.index)).find?
    fun index => decide (index ∉ sending.done)

/-- From the head of the loop over the chunks to the next request. -/
def sendFrom (position : Nat) (loop : Loop) (sending : Sending) (task : Task) : Task :=
  match nextGap sending with
  | none =>
      (task.note (.completeCalled sending.sessionId)).setPhase position loop
        (.completing sending.sessionId)
  | some index =>
      if task.status = .canceled ∨ task.status = .paused then
        task.setPhase position loop .ended
      else
        task.setPhase position loop (.putting { sending with index := index, attempt := 0 })

/-- The session is known: `markUploading` and on to the chunks. -/
def sendGaps (position : Nat) (loop : Loop) (sessionId : Uuid) (info : SessionInfo)
    (task : Task) : Task :=
  task.markUploading.sendFrom position loop
    { sessionId := sessionId, totalChunks := info.totalChunks, done := info.uploadedChunks,
      index := 0, attempt := 0 }

/-- The error leaves `runChunkedUpload` and `runChunkedUploadTask` folds it into the store. -/
def fail (position : Nat) (loop : Loop) (task : Task) : Task :=
  task.markFailed.setPhase position loop .ended

/-- `runChunkedUploadTask` up to its first await. -/
def runChunkedUploadTask (task : Task) : Task :=
  match task.file with
  | none => task.markFailed
  | some _ =>
      let phase := match task.sessionId with
        | none => .creating
        | some sessionId => .reading sessionId
      { task with loops := task.loops ++ [{ controller := task.controller, phase := phase }] }

end Task

/-! ## Steps -/

/-- What a loop sees of the request it awaits. The end of a pause has `arrived`. -/
inductive Reply where
  | session (info : SessionInfo)
  | arrived
  | failed
  | canceled

inductive Click where
  | pause
  | continueUpload
  | cancel
  | resumeWithFile (file : File)

inductive Action where
  | start
  | click (click : Click)
  | answer (position : Nat) (reply : Reply)

namespace Task

/-- What a loop does with a reply. A request is canceled only through its signal, and
`createSession` has none. -/
def react (position : Nat) (loop : Loop) (reply : Reply) (task : Task) : Option Task :=
  match loop.phase, reply with
  | .creating, .session info =>
      some ((task.setSessionInfo info.id).sendGaps position loop info.id info)
  | .creating, .failed => some (task.fail position loop)
  | .reading sessionId, .session info => some (task.sendGaps position loop sessionId info)
  | .reading _, .failed => some (task.fail position loop)
  | .putting sending, .arrived =>
      some (task.sendFrom position loop
        { sending with done := sending.done ++ [sending.index], index := sending.index + 1 })
  | .putting sending, .failed =>
      if sending.attempt + 1 > chunkRetryLimit then
        some (task.fail position loop)
      else
        some (task.setPhase position loop
          (.backingOff { sending with attempt := sending.attempt + 1 }))
  | .backingOff sending, .arrived => some (task.setPhase position loop (.putting sending))
  | .completing sessionId, .arrived =>
      some ((task.note (.completeAnswered sessionId true)).markCompleted.setPhase position loop
        .ended)
  | .completing sessionId, .failed =>
      some ((task.note (.completeAnswered sessionId false)).fail position loop)
  | .completing sessionId, .canceled =>
      if loop.controller ∈ task.aborted then
        some ((task.note (.completeAnswered sessionId false)).setPhase position loop .ended)
      else
        none
  | .reading _, .canceled | .putting _, .canceled =>
      if loop.controller ∈ task.aborted then
        some (task.setPhase position loop .ended)
      else
        none
  | _, _ => none

def continueUpload (task : Task) : Task :=
  match task.file with
  | none => task
  | some _ => { task with controller := task.controller + 1 }.runChunkedUploadTask

def resumeWithFile (file : File) (task : Task) : Task :=
  if file.size ≠ task.size then task.markFailed else (task.attachFile file).continueUpload

/-- The buttons that `UploadTaskItem` shows. -/
def offers (task : Task) : Click → Bool
  | .pause => task.status = .uploading && task.sessionId.isSome
  | .continueUpload => task.status = .paused
  | .cancel => task.status = .uploading || task.status = .paused || task.status = .needsFile
  | .resumeWithFile _ => task.status = .needsFile

def clicked (task : Task) : Click → Task
  | .pause => task.markPaused
  | .continueUpload => task.continueUpload
  | .cancel => task.cancelTask
  | .resumeWithFile file => task.resumeWithFile file

/-- A queued task is handed to `uploadOne` once. A file below the threshold has no loop. -/
def step (task : Task) : Action → Option Task
  | .start =>
      if task.status = .queued ∧ task.loops = [] ∧
          ∃ file ∈ task.file, chunkedUploadThreshold ≤ file.size then
        some task.runChunkedUploadTask
      else
        none
  | .click click => if task.offers click then some (task.clicked click) else none
  | .answer position reply =>
      match task.loops[position]? with
      | none => none
      | some loop => task.react position loop reply

end Task

def Step (action : Action) (before after : Task) : Prop :=
  before.step action = some after

/-! ## The law -/

/-- The loop at the position has not returned yet. -/
def Task.Runs (task : Task) (position : Nat) : Prop :=
  ∃ loop ∈ task.loops[position]?, loop.phase ≠ .ended

/-- The session was never completed, or the last call of `completeSession` failed. -/
def PreviousFailed (sessionId : Uuid) : List Mark → Prop
  | [] => True
  | .completeCalled other :: earlier => other ≠ sessionId ∧ PreviousFailed sessionId earlier
  | .completeAnswered other ok :: earlier =>
      (other = sessionId ∧ ok = false) ∨ (other ≠ sessionId ∧ PreviousFailed sessionId earlier)
  | .completed :: earlier => PreviousFailed sessionId earlier
  | .failed :: earlier => PreviousFailed sessionId earlier

/-- What may be marked after the earlier marks. -/
def Mark.Follows (earlier : List Mark) : Mark → Prop
  | .completeCalled sessionId => PreviousFailed sessionId earlier
  | .failed => .completed ∉ earlier
  | .completeAnswered .. | .completed => True

def WellMarked : List Mark → Prop
  | [] => True
  | mark :: earlier => mark.Follows earlier ∧ WellMarked earlier

/-- At most one loop is sending, no completion is called again while the last call may
have stored the file, and a stored task is not marked failed. -/
structure OneLoop (task : Task) : Prop where
  one : ∀ first second, task.Runs first → task.Runs second → first = second
  marked : WellMarked task.marks

/-- The click calls `runChunkedUploadTask`. -/
def Action.startsLoop (task : Task) : Action → Bool
  | .click .continueUpload => task.file.isSome
  | .click (.resumeWithFile file) => file.size = task.size
  | _ => false

/-- No loop of the task is still running. -/
def Task.Idle (task : Task) : Prop :=
  ∀ position, ¬ task.Runs position

theorem Task.idle_iff (task : Task) : (∀ loop ∈ task.loops, loop.phase = .ended) ↔ task.Idle := by
  constructor
  · rintro ended position ⟨loop, isLoop, running⟩
    exact running (ended loop (List.mem_of_getElem? isLoop))
  · intro idle loop member
    by_contra running
    rcases List.getElem?_of_mem member with ⟨position, isLoop⟩
    exact idle position ⟨loop, isLoop, running⟩

instance (task : Task) : Decidable task.Idle :=
  decidable_of_iff _ task.idle_iff

/-- A click that starts a loop finds no loop of the task that is still running. -/
def StartsAlone (event : Event Task Action) : Prop :=
  event.action.startsLoop event.before → event.before.Idle

instance (event : Event Task Action) : Decidable (StartsAlone event) :=
  inferInstanceAs (Decidable (_ → _))

/-! ## What a reply does -/

/-- What a reply leaves: the loop in its next phase, the marks of the branch taken. -/
inductive Reacted (task : Task) (position : Nat) (loop : Loop) (after : Task) : Prop
  | moved (phase : Phase)
      (loops : after.loops = task.loops.set position { loop with phase := phase })
      (marks : after.marks = task.marks)
      (before : ∀ sessionId, loop.phase ≠ .completing sessionId)
  | called (sessionId : Uuid)
      (loops : after.loops =
        task.loops.set position { loop with phase := .completing sessionId })
      (marks : after.marks = .completeCalled sessionId :: task.marks)
      (before : ∀ sessionId, loop.phase ≠ .completing sessionId)
  | failed
      (loops : after.loops = task.loops.set position { loop with phase := .ended })
      (marks : after.marks = .failed :: task.marks)
      (before : ∀ sessionId, loop.phase ≠ .completing sessionId)
  | stored (sessionId : Uuid)
      (loops : after.loops = task.loops.set position { loop with phase := .ended })
      (marks : after.marks = .completed :: .completeAnswered sessionId true :: task.marks)
      (status : after.status = .completed)
  | refused (sessionId : Uuid)
      (loops : after.loops = task.loops.set position { loop with phase := .ended })
      (marks : after.marks = .failed :: .completeAnswered sessionId false :: task.marks ∨
        after.marks = .completeAnswered sessionId false :: task.marks)
      (before : loop.phase = .completing sessionId)

theorem Task.sendFrom_reacted {task current : Task} (position : Nat) (loop : Loop)
    (sending : Sending) (loops : current.loops = task.loops) (marks : current.marks = task.marks)
    (before : ∀ sessionId, loop.phase ≠ .completing sessionId) :
    Reacted task position loop (current.sendFrom position loop sending) := by
  unfold sendFrom
  split
  · apply Reacted.called sending.sessionId
    · simp [setPhase, note, loops]
    · simp [setPhase, note, marks]
    · exact before
  · split_ifs
    · exact .moved .ended (by simp [setPhase, loops]) marks before
    · apply Reacted.moved
      · simp only [setPhase, loops]
        rfl
      · exact marks
      · exact before

theorem Task.fail_reacted (position : Nat) (loop : Loop) (task : Task)
    (before : ∀ sessionId, loop.phase ≠ .completing sessionId) :
    Reacted task position loop (task.fail position loop) :=
  .failed rfl rfl before

/-- A reply is awaited by a loop that runs, and moves only that loop. -/
theorem Task.react_reacted {position : Nat} {loop : Loop} {reply : Reply} {task after : Task}
    (reacts : task.react position loop reply = some after) :
    loop.phase ≠ .ended ∧ Reacted task position loop after := by
  unfold react at reacts
  split at reacts
  case h_1 isPhase =>
    cases reacts
    exact ⟨by simp [isPhase],
      sendFrom_reacted position loop _ rfl rfl (by simp [isPhase])⟩
  case h_2 isPhase =>
    cases reacts
    exact ⟨by simp [isPhase], task.fail_reacted position loop (by simp [isPhase])⟩
  case h_3 isPhase =>
    cases reacts
    exact ⟨by simp [isPhase],
      sendFrom_reacted position loop _ rfl rfl (by simp [isPhase])⟩
  case h_4 isPhase =>
    cases reacts
    exact ⟨by simp [isPhase], task.fail_reacted position loop (by simp [isPhase])⟩
  case h_5 isPhase =>
    cases reacts
    exact ⟨by simp [isPhase],
      sendFrom_reacted position loop _ rfl rfl (by simp [isPhase])⟩
  case h_6 isPhase =>
    split_ifs at reacts <;> cases reacts
    · exact ⟨by simp [isPhase], task.fail_reacted position loop (by simp [isPhase])⟩
    · exact ⟨by simp [isPhase], .moved _ rfl rfl (by simp [isPhase])⟩
  case h_7 isPhase =>
    cases reacts
    exact ⟨by simp [isPhase], .moved _ rfl rfl (by simp [isPhase])⟩
  case h_8 sessionId isPhase =>
    cases reacts
    exact ⟨by simp [isPhase], .stored sessionId rfl rfl rfl⟩
  case h_9 sessionId isPhase =>
    cases reacts
    exact ⟨by simp [isPhase], .refused sessionId rfl (.inl rfl) isPhase⟩
  case h_10 sessionId isPhase =>
    split_ifs at reacts
    cases reacts
    exact ⟨by simp [isPhase], .refused sessionId rfl (.inr rfl) isPhase⟩
  case h_11 isPhase =>
    split_ifs at reacts
    cases reacts
    exact ⟨by simp [isPhase], .moved _ rfl rfl (by simp [isPhase])⟩
  case h_12 isPhase =>
    split_ifs at reacts
    cases reacts
    exact ⟨by simp [isPhase], .moved _ rfl rfl (by simp [isPhase])⟩
  case h_13 => cases reacts

/-! ## The invariant -/

/-- A loop of the task awaits the completion of the session. -/
def Task.Completes (task : Task) (sessionId : Uuid) : Prop :=
  ∃ (position : Nat) (loop : Loop), task.loops[position]? = some loop ∧
    loop.phase = .completing sessionId

/-- What every step keeps when loops are started alone. -/
structure Steady (task : Task) : Prop extends OneLoop task where
  stored : .completed ∈ task.marks → task.status = .completed ∧ task.Idle
  settled : ∀ sessionId, PreviousFailed sessionId task.marks ∨ .completed ∈ task.marks ∨
    task.Completes sessionId

theorem Task.runs_set {task after : Task} {position : Nat} {loop : Loop} {phase : Phase}
    (found : task.loops[position]? = some loop)
    (loops : after.loops = task.loops.set position { loop with phase := phase })
    (other : Nat) :
    after.Runs other ↔ if other = position then phase ≠ .ended else task.Runs other := by
  unfold Runs
  rw [loops, List.getElem?_set]
  rcases List.getElem?_eq_some_iff.mp found with ⟨inBounds, _⟩
  by_cases same : position = other
  · subst same
    simp [inBounds]
  · simp [same, Ne.symm same]

section Steps

variable {task after : Task} {position : Nat} {loop : Loop}

/-- While a loop runs the task is not stored, and no other loop runs. -/
theorem Steady.at_running (steady : Steady task) (runs : task.Runs position) :
    .completed ∉ task.marks ∧ ∀ other, task.Runs other → other = position := by
  constructor
  · exact fun stored => (steady.stored stored).2 position runs
  · exact fun other otherRuns => steady.one other position otherRuns runs

/-- While a loop runs, only the session that it completes has an open call. -/
theorem Steady.previousFailed (steady : Steady task)
    (found : task.loops[position]? = some loop) (running : loop.phase ≠ .ended)
    {sessionId : Uuid} (before : loop.phase ≠ .completing sessionId) :
    PreviousFailed sessionId task.marks := by
  rcases steady.at_running ⟨loop, found, running⟩ with ⟨notStored, alone⟩
  rcases steady.settled sessionId with settled | stored | ⟨other, completing, isLoop, isPhase⟩
  · exact settled
  · exact absurd stored notStored
  · have runs : task.Runs other := ⟨completing, isLoop, by simp [isPhase]⟩
    cases alone other runs
    cases found.symm.trans isLoop
    exact absurd isPhase before

/-- A task that is not stored is steady when its calls are settled. -/
theorem OneLoop.steady (law : OneLoop after) (notStored : .completed ∉ after.marks)
    (settled : ∀ sessionId, PreviousFailed sessionId after.marks ∨ after.Completes sessionId) :
    Steady after := by
  constructor
  case toOneLoop => exact law
  case stored => exact fun stored => absurd stored notStored
  case settled =>
    intro sessionId
    rcases settled sessionId with failed | completes
    · exact .inl failed
    · exact .inr (.inr completes)

theorem Steady.reacted (steady : Steady task) (found : task.loops[position]? = some loop)
    (running : loop.phase ≠ .ended) (reacted : Reacted task position loop after) :
    Steady after := by
  rcases steady.at_running ⟨loop, found, running⟩ with ⟨notStored, alone⟩
  have aloneAfter : ∀ phase,
      after.loops = task.loops.set position { loop with phase := phase } →
        ∀ other, after.Runs other → other = position := by
    intro phase loops other runs
    by_contra different
    rw [Task.runs_set found loops, if_neg different] at runs
    exact different (alone other runs)
  have oneAfter : ∀ phase,
      after.loops = task.loops.set position { loop with phase := phase } →
        ∀ first second, after.Runs first → after.Runs second → first = second := by
    intro phase loops first second firstRuns secondRuns
    rw [aloneAfter phase loops first firstRuns, aloneAfter phase loops second secondRuns]
  cases reacted with
  | moved phase loops marks before =>
      apply OneLoop.steady ⟨oneAfter phase loops, marks ▸ steady.marked⟩ (marks ▸ notStored)
      intro sessionId
      rw [marks]
      exact .inl (steady.previousFailed found running (before sessionId))
  | called sessionId loops marks before =>
      apply OneLoop.steady ⟨oneAfter _ loops, ?_⟩
      · simpa [marks] using notStored
      · intro other
        by_cases same : sessionId = other
        · subst same
          refine .inr ⟨position, { loop with phase := .completing sessionId }, ?_, rfl⟩
          rw [loops, List.getElem?_set_self (List.getElem?_eq_some_iff.mp found).1]
        · rw [marks]
          exact .inl ⟨same, steady.previousFailed found running (before other)⟩
      · rw [marks]
        exact ⟨steady.previousFailed found running (before sessionId), steady.marked⟩
  | failed loops marks before =>
      apply OneLoop.steady ⟨oneAfter _ loops, ?_⟩
      · simpa [marks] using notStored
      · intro sessionId
        rw [marks]
        exact .inl (steady.previousFailed found running (before sessionId))
      · rw [marks]
        exact ⟨notStored, steady.marked⟩
  | stored sessionId loops marks status =>
      refine ⟨⟨oneAfter _ loops, ?_⟩, ?_, ?_⟩
      · rw [marks]
        exact ⟨trivial, trivial, steady.marked⟩
      · intro _
        refine ⟨status, ?_⟩
        intro other runs
        cases aloneAfter _ loops other runs
        simp [Task.runs_set found loops] at runs
      · intro _
        rw [marks]
        exact .inr (.inl List.mem_cons_self)
  | refused sessionId loops marks before =>
      have settled : ∀ other,
          PreviousFailed other (.completeAnswered sessionId false :: task.marks) := by
        intro other
        by_cases same : sessionId = other
        · exact .inl ⟨same, rfl⟩
        · refine .inr ⟨same, steady.previousFailed found running ?_⟩
          rw [before]
          simpa using same
      rcases marks with marks | marks
      · apply OneLoop.steady ⟨oneAfter _ loops, ?_⟩
        · simpa [marks] using notStored
        · intro other
          rw [marks]
          exact .inl (settled other)
        · rw [marks]
          exact ⟨by simpa [Mark.Follows] using notStored, trivial, steady.marked⟩
      · apply OneLoop.steady ⟨oneAfter _ loops, ?_⟩
        · simpa [marks] using notStored
        · intro other
          rw [marks]
          exact .inl (settled other)
        · rw [marks]
          exact ⟨trivial, steady.marked⟩

/-- The calls of a task that is not stored. -/
theorem Steady.openCalls (steady : Steady task) (notStored : .completed ∉ task.marks)
    (sessionId : Uuid) : PreviousFailed sessionId task.marks ∨ task.Completes sessionId := by
  rcases steady.settled sessionId with settled | stored | completes
  · exact .inl settled
  · exact absurd stored notStored
  · exact .inr completes

/-- What changes neither the loops nor the marks of a task that is not stored. -/
theorem Steady.same (steady : Steady task) (notStored : .completed ∉ task.marks)
    (loops : after.loops = task.loops) (marks : after.marks = task.marks) : Steady after := by
  apply OneLoop.steady ⟨?_, marks ▸ steady.marked⟩ (marks ▸ notStored)
  · simpa only [marks, Task.Completes, loops] using steady.openCalls notStored
  · simpa only [Task.Runs, loops] using steady.one

theorem Steady.markFailed (steady : Steady task) (notStored : .completed ∉ task.marks) :
    Steady task.markFailed := by
  have law : OneLoop task.markFailed := ⟨steady.one, notStored, steady.marked⟩
  apply law.steady
  · simpa [Task.markFailed, Task.note] using notStored
  · exact steady.openCalls notStored

theorem Task.runs_append {new : Loop} (loops : after.loops = task.loops ++ [new])
    {other : Nat} (runs : after.Runs other) : task.Runs other ∨ other = task.loops.length := by
  rcases runs with ⟨found, isLoop, running⟩
  rw [loops, List.getElem?_append] at isLoop
  split_ifs at isLoop with inBounds
  · exact .inl ⟨found, isLoop, running⟩
  · have inNew := (List.getElem?_eq_some_iff.mp isLoop).1
    simp at inNew
    exact .inr (by omega)

/-- A loop that is started alone. -/
theorem Steady.runChunkedUploadTask (steady : Steady task) (idle : task.Idle)
    (notStored : .completed ∉ task.marks) : Steady task.runChunkedUploadTask := by
  unfold Task.runChunkedUploadTask
  split
  · exact steady.markFailed notStored
  · refine OneLoop.steady ⟨?_, steady.marked⟩ notStored ?_
    · intro first second firstRuns secondRuns
      rcases Task.runs_append rfl firstRuns with runs | rfl
      · exact absurd runs (idle first)
      · rcases Task.runs_append rfl secondRuns with runs | rfl
        · exact absurd runs (idle second)
        · rfl
    · intro sessionId
      rcases steady.openCalls notStored sessionId with settled | ⟨other, loop, isLoop, isPhase⟩
      · exact .inl settled
      · exact absurd ⟨loop, isLoop, by simp [isPhase]⟩ (idle other)

theorem Steady.continueUpload (steady : Steady task) (notStored : .completed ∉ task.marks)
    (idle : task.file.isSome → task.Idle) : Steady task.continueUpload := by
  unfold Task.continueUpload
  split
  case h_1 => exact steady
  case h_2 isFile =>
    have renewed : Steady { task with controller := task.controller + 1 } :=
      steady.same notStored rfl rfl
    exact renewed.runChunkedUploadTask (idle (by simp [isFile])) notStored

end Steps

/-! ## Runs -/

theorem Steady.initial {task : Task} (initial : Initial task) : Steady task := by
  have idle : ∀ task : Task, task.loops = [] → task.marks = [] → Steady task := by
    intro task loops marks
    constructor
    case toOneLoop =>
      constructor
      · intro first second runs _
        rcases runs with ⟨loop, isLoop, _⟩
        simp [loops] at isLoop
      · rw [marks]
        trivial
    case stored =>
      intro stored
      simp [marks] at stored
    case settled =>
      intro sessionId
      rw [marks]
      exact .inl trivial
  cases initial with
  | added file => exact idle _ rfl rfl
  | restored sessionId size => exact idle _ rfl rfl

theorem Steady.clicked {task : Task} {click : Click} (steady : Steady task)
    (offered : task.offers click = true)
    (alone : (Action.click click).startsLoop task → task.Idle) : Steady (task.clicked click) := by
  have notStored : .completed ∉ task.marks := by
    intro stored
    have status := (steady.stored stored).1
    cases click <;> simp [Task.offers, status] at offered
  cases click with
  | pause => exact steady.same notStored rfl rfl
  | cancel => exact steady.same notStored rfl rfl
  | continueUpload => exact steady.continueUpload notStored alone
  | resumeWithFile file =>
      simp only [Task.clicked, Task.resumeWithFile]
      split_ifs with mismatch
      · exact steady.markFailed notStored
      · have attached : Steady (task.attachFile file) := steady.same notStored rfl rfl
        apply attached.continueUpload notStored
        intro _
        exact alone (by simpa [Action.startsLoop] using mismatch)

/-- One step keeps the invariant when a click starts its loop alone. -/
theorem Steady.step {before after : Task} {action : Action} (steady : Steady before)
    (taken : Step action before after)
    (alone : action.startsLoop before → before.Idle) : Steady after := by
  cases action with
  | start =>
      simp only [Step, Task.step] at taken
      split_ifs at taken with queued
      cases taken
      rcases queued with ⟨status, noLoops, _⟩
      have notStored : .completed ∉ before.marks := by
        intro stored
        rw [(steady.stored stored).1] at status
        cases status
      apply steady.runChunkedUploadTask _ notStored
      rintro position ⟨loop, isLoop, _⟩
      simp [noLoops] at isLoop
  | click click =>
      simp only [Step, Task.step] at taken
      split_ifs at taken with offered
      cases taken
      exact steady.clicked offered alone
  | answer position reply =>
      simp only [Step, Task.step] at taken
      split at taken
      · cases taken
      · rename_i loop found
        rcases Task.react_reacted taken with ⟨running, reacted⟩
        exact steady.reacted found running reacted

theorem Task.continueUpload_loops {task : Task} (hasFile : task.file.isSome) :
    ∃ new : Loop, new.phase ≠ .ended ∧ task.continueUpload.loops = task.loops ++ [new] := by
  rcases Option.isSome_iff_exists.mp hasFile with ⟨file, isFile⟩
  simp only [continueUpload, runChunkedUploadTask, isFile]
  refine ⟨_, ?_, rfl⟩
  cases task.sessionId <;> simp

/-- A click that starts a loop leaves it running, beside those that ran before. -/
theorem Task.clicked_starts {task : Task} {click : Click}
    (starts : (Action.click click).startsLoop task = true) :
    (task.clicked click).Runs task.loops.length ∧
      ∀ position, task.Runs position → (task.clicked click).Runs position := by
  have appended : ∃ new : Loop, new.phase ≠ .ended ∧
      (task.clicked click).loops = task.loops ++ [new] := by
    cases click with
    | pause => cases starts
    | cancel => cases starts
    | continueUpload => exact Task.continueUpload_loops starts
    | resumeWithFile file =>
        have fits : file.size = task.size := by simpa [Action.startsLoop] using starts
        simp only [clicked, resumeWithFile, fits, ne_eq, not_true_eq_false, if_false]
        exact (task.attachFile file).continueUpload_loops rfl
  rcases appended with ⟨new, running, loops⟩
  constructor
  · exact ⟨new, by simp [loops], running⟩
  · rintro position ⟨loop, isLoop, isRunning⟩
    refine ⟨loop, ?_, isRunning⟩
    rw [loops, List.getElem?_append_left (List.getElem?_eq_some_iff.mp isLoop).1]
    exact isLoop

/-- Every state of a run obeys the law exactly when every loop is started alone. -/
theorem upload_loops_iff {start final : Task} {events : List (Event Task Action)}
    (initial : Initial start) (run : Run Step start events final) :
    (∀ event ∈ events, OneLoop event.after) ↔ ∀ event ∈ events, StartsAlone event := by
  constructor
  · rintro lawful ⟨before, action, after⟩ member starts position runs
    rcases List.append_of_mem member with ⟨past, rest, split⟩
    have taken := (run.upTo split).2
    cases action with
    | start => cases starts
    | answer => cases starts
    | click click =>
        simp only [Step, Task.step] at taken
        split_ifs at taken
        cases taken
        rcases Task.clicked_starts starts with ⟨newRuns, oldRuns⟩
        have law : OneLoop (before.clicked click) := lawful _ member
        have same := law.one position before.loops.length (oldRuns position runs) newRuns
        rcases runs with ⟨loop, isLoop, _⟩
        have inBounds := (List.getElem?_eq_some_iff.mp isLoop).1
        rw [same] at inBounds
        exact absurd inBounds (Nat.lt_irrefl _)
  · intro alone event member
    rcases List.append_of_mem member with ⟨past, rest, split⟩
    rcases run.upTo split with ⟨shorter, taken⟩
    have steady : Steady event.before := by
      apply shorter.keeps (.initial initial)
      intro earlier isEarlier steadyBefore earlierTaken
      exact steadyBefore.step earlierTaken (alone earlier (by simp [split, isEarlier]))
    exact (steady.step taken (alone event member)).toOneLoop

/-! ## A pause that comes too late -/

/-- The run that the actions make, up to the first that is not possible. -/
def trace : List Action → Task → List (Event Task Action)
  | [], _ => []
  | action :: rest, task =>
      match task.step action with
      | none => []
      | some after => ⟨task, action, after⟩ :: trace rest after

def finish : List Action → Task → Task
  | [], task => task
  | action :: rest, task =>
      match task.step action with
      | none => task
      | some after => finish rest after

theorem trace_run (actions : List Action) (task : Task) :
    Run Step task (trace actions task) (finish actions task) := by
  induction actions generalizing task with
  | nil => exact .nothing
  | cons action rest induction =>
      simp only [trace, finish]
      split
      case h_1 => exact .nothing
      case h_2 after taken => exact (Run.single taken).append (induction after)

/-- A file of 100 MB and a session of one chunk. -/
def bigFile : File where
  size := 104857600

def oneChunk : SessionInfo where
  id := 7
  chunkSize := 104857600
  totalChunks := 1
  uploadedChunks := []

/-- The user pauses while the chunk is on its way and continues at once. -/
def continuedTooSoon : List Action :=
  [.start, .answer 0 (.session oneChunk), .click .pause, .click .continueUpload,
    .answer 1 (.session oneChunk), .answer 0 .arrived, .answer 1 .arrived,
    .answer 0 .arrived, .answer 1 .failed]

/-- The user continues after the paused loop has stopped. -/
def continuedInTime : List Action :=
  [.start, .answer 0 (.session { oneChunk with totalChunks := 2 }), .click .pause,
    .answer 0 .arrived, .click .continueUpload,
    .answer 1 (.session { oneChunk with totalChunks := 2, uploadedChunks := [0] }),
    .answer 1 .arrived, .answer 1 .arrived]

theorem upload_loops_in_time : OneLoop (finish continuedInTime (.added bigFile)) ∧
    (finish continuedInTime (.added bigFile)).status = .completed := by
  constructor
  · have alone : ∀ event ∈ trace continuedInTime (.added bigFile), StartsAlone event := by
      decide +kernel
    have lawful := (upload_loops_iff (.added bigFile) (trace_run continuedInTime _)).mpr alone
    have isLast : ⟨_, Action.answer 1 .arrived, finish continuedInTime (.added bigFile)⟩ ∈
        trace continuedInTime (.added bigFile) :=
      List.mem_of_getElem? (i := 7) rfl
    exact lawful _ isLast
  · rfl

/-- Both loops call `completeSession`. The file is stored and then marked failed. -/
theorem upload_loops_overlap : ∃ events final, Run Step (.added bigFile) events final ∧
    (∃ event ∈ events, event.after.Runs 0 ∧ event.after.Runs 1) ∧
    final.status = .failed ∧
    final.marks = [.failed, .completeAnswered 7 false, .completed, .completeAnswered 7 true,
      .completeCalled 7, .completeCalled 7] ∧
    ¬ ∀ event ∈ events, OneLoop event.after := by
  have overlaps : ∃ event ∈ trace continuedTooSoon (.added bigFile),
      event.after.Runs 0 ∧ event.after.Runs 1 := by
    refine ⟨_, List.mem_of_getElem? (i := 3) rfl, ⟨_, rfl, by decide⟩, ⟨_, rfl, by decide⟩⟩
  refine ⟨_, _, trace_run continuedTooSoon _, overlaps, rfl, rfl, ?_⟩
  intro lawful
  rcases overlaps with ⟨event, member, first, second⟩
  cases (lawful event member).one 0 1 first second

end UploadLoop

end CloudDrive
