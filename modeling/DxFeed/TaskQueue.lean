import DxFeed.Algorithms
import DxFeed.Library.FixedWidth
import DxFeed.Library.Loop

/-!
# The task queue

A queue is the list of its tasks; allocations succeed.  A running task may add tasks to the queue,
since the lock is recursive.

* `Processing`: what the processors of the tasks do;
* `addTaskToQueue`, `executeTaskQueue`, `cleanupTaskQueue`: the functions of `TaskQueue.c`;
* `PassLaw`, `CleanupLaw`: the tasks that were called, those that wait, and the queue;
* `taskQueue_law`.
-/

namespace DxFeed.TaskQueue

open FixedWidth Loop

/-! ### Tasks -/

/-- `dx_task_data_t`. -/
structure TaskData (P V : Type) where
  processor : P
  data : V
  deriving DecidableEq

/-- `dx_tes_success`. -/
def tesSuccess : ℕ := 1

/-- `dx_tes_dont_advance`. -/
def tesDontAdvance : ℕ := 2

/-- `dx_tes_pop_me`. -/
def tesPopMe : ℕ := 4

/-- `dx_tc_free_resources`. -/
def tcFreeResources : Int32 := 1

/-- What a call of a processor does: the calls of `dx_add_task_to_queue` that it makes, its result,
and the world it leaves. -/
structure TaskOutcome (P V W : Type) where
  added : List (Option P × V)
  result : Int32
  world : W

/-- The processors: they are called with their data and a command, and may look at the queue. -/
abbrev Processing (P V W : Type) :=
  TaskData P V → Int32 → List (TaskData P V) → W → TaskOutcome P V W

/-- A call of a processor, and the tasks that it added. -/
structure TaskCall (P V : Type) where
  task : TaskData P V
  command : Int32
  result : Int32
  added : List (TaskData P V)
  deriving DecidableEq

/-- The queue, the local variables of a loop over it, the world, and the calls so far.  `stopped`
means that the loop was left by `break`. -/
structure PassState (P V W : Type) where
  queue : List (TaskData P V)
  i : ℕ
  res : Bool
  stopped : Bool
  world : W
  calls : List (TaskCall P V)

variable {P V W : Type} (process : Processing P V W) (queue : List (TaskData P V)) (world : W)
  {s : PassState P V W}

/-! ### The functions -/

/-- `dx_add_task_to_queue`: whether it succeeds, and the queue. -/
def addTaskToQueue (queue : List (TaskData P V)) :
    Option P → V → Bool × List (TaskData P V)
  | none, _ => (false, queue)
  | some processor, data => (true, arrayInsert queue ⟨processor, data⟩ queue.length)

/-- The calls of `dx_add_task_to_queue` by a task. -/
def addTasks (queue : List (TaskData P V)) (added : List (Option P × V)) :
    List (TaskData P V) :=
  added.foldl (fun queue task => (addTaskToQueue queue task.1 task.2).2) queue

/-- The call of a processor: its result, and the state with the tasks that were added. -/
def callTask (task : TaskData P V) (command : Int32) (s : PassState P V W) :
    Int32 × PassState P V W :=
  let outcome := process task command s.queue s.world
  let queue := addTasks s.queue outcome.added
  (outcome.result,
    { s with
      queue := queue
      world := outcome.world
      calls := s.calls ++ [⟨task, command, outcome.result, queue.drop s.queue.length⟩] })

/-- What `dx_execute_task_queue` does with the result of a task. -/
def handleResult (taskRes : Int32) (s : PassState P V W) : PassState P V W :=
  let res := isFlagSet (word taskRes) tesSuccess && s.res
  let queue :=
    if isFlagSet (word taskRes) tesPopMe then arrayDelete s.queue s.i else s.queue
  if isFlagSet (word taskRes) tesDontAdvance || !res then
    { s with queue := queue, res := res, stopped := true }
  else if isFlagSet (word taskRes) tesPopMe then { s with queue := queue, res := res }
  else { s with queue := queue, res := res, i := s.i + 1 }

/-- The loop of `dx_execute_task_queue`. -/
def executeStep (s : PassState P V W) : Option (PassState P V W) :=
  if s.stopped then none
  else
    match s.queue[s.i]? with
    | none => none
    | some task =>
        let (taskRes, s) := callTask process task 0 s
        some (handleResult taskRes s)

/-- The loop of `dx_cleanup_task_queue`. -/
def cleanupStep (s : PassState P V W) : Option (PassState P V W) :=
  match s.queue[s.i]? with
  | none => none
  | some task =>
      let (taskRes, s) := callTask process task tcFreeResources s
      some { s with res := isFlagSet (word taskRes) tesSuccess && s.res, i := s.i + 1 }

/-- The state in front of a loop. -/
def startState : PassState P V W where
  queue := queue
  i := 0
  res := true
  stopped := false
  world := world
  calls := []

/-- What a function of the queue leaves: its result, the queue, the world, and the calls that were
made. -/
structure QueueResult (P V W : Type) where
  res : Bool
  queue : List (TaskData P V)
  world : W
  calls : List (TaskCall P V)

/-- `dx_execute_task_queue`, with the results of the calls that lock and unlock the mutex; there is
none if the loop is not over after so many steps. -/
def executeTaskQueue (locked unlocked : Bool) (steps : ℕ) : Option (QueueResult P V W) :=
  if !locked then some ⟨false, queue, world, []⟩
  else
    let s := loop (executeStep process) steps (startState queue world)
    if Over (executeStep process) s then some ⟨unlocked && s.res, s.queue, s.world, s.calls⟩
    else none

/-- `dx_cleanup_task_queue`. -/
def cleanupTaskQueue (locked unlocked : Bool) (steps : ℕ) : Option (QueueResult P V W) :=
  if !locked then some ⟨false, queue, world, []⟩
  else
    let s := loop (cleanupStep process) steps (startState queue world)
    if Over (cleanupStep process) s then some ⟨unlocked && s.res, [], s.world, s.calls⟩
    else none

/-! ### Calls -/

/-- The tasks that the calls added. -/
def appended (calls : List (TaskCall P V)) : List (TaskData P V) :=
  calls.flatMap TaskCall.added

/-- The task was not popped. -/
def TaskCall.kept (call : TaskCall P V) : Bool :=
  !isFlagSet (word call.result) tesPopMe

/-- The task succeeded. -/
def TaskCall.success (call : TaskCall P V) : Bool :=
  isFlagSet (word call.result) tesSuccess

/-- The next task is processed. -/
def TaskCall.advances (call : TaskCall P V) : Bool :=
  call.success && !isFlagSet (word call.result) tesDontAdvance

theorem addTasks_append (added : List (Option P × V)) :
    ∃ tasks, addTasks queue added = queue ++ tasks := by
  induction added generalizing queue with
  | nil => exact ⟨[], (List.append_nil queue).symm⟩
  | cons task added ih =>
      obtain ⟨_ | processor, data⟩ := task
      · exact ih queue
      · obtain ⟨tasks, htasks⟩ := ih (arrayInsert queue ⟨processor, data⟩ queue.length)
        refine ⟨⟨processor, data⟩ :: tasks, htasks.trans ?_⟩
        simp [arrayInsert]

/-- A call adds its tasks at the end of the queue. -/
theorem callTask_eq (task : TaskData P V) (command : Int32) (s : PassState P V W) :
    ∃ (call : TaskCall P V) (world : W), call.task = task ∧ call.command = command ∧
      callTask process task command s =
        (call.result,
          { s with
            queue := s.queue ++ call.added
            world := world
            calls := s.calls ++ [call] }) := by
  obtain ⟨tasks, htasks⟩ := addTasks_append s.queue (process task command s.queue s.world).added
  refine ⟨⟨task, command, (process task command s.queue s.world).result, tasks⟩,
    (process task command s.queue s.world).world, rfl, rfl, ?_⟩
  unfold callTask
  dsimp only
  rw [htasks, List.drop_left]

/-- The task that waits first is called: it is behind the calls, and what it adds waits last. -/
theorem order_concat {calls : List (TaskCall P V)} {call : TaskCall P V}
    {rest : List (TaskData P V)}
    (h : queue ++ appended calls = calls.map TaskCall.task ++ call.task :: rest) :
    queue ++ appended (calls ++ [call]) =
      (calls ++ [call]).map TaskCall.task ++ (rest ++ call.added) := by
  rw [appended, List.flatMap_append, ← List.append_assoc]
  exact (congrArg (· ++ _) h).trans (by simp)

/-! ### A pass -/

/-- After a part of a pass over a queue: the tasks that were there or were added are, in their
order, those that were called and those that wait; the queue is the ones that were called and not
popped, and those that wait.  Only the last call can stop the pass. -/
structure PassLaw (queue : List (TaskData P V)) (s : PassState P V W)
    (waiting : List (TaskData P V)) : Prop where
  order : queue ++ appended s.calls = s.calls.map TaskCall.task ++ waiting
  kept : s.queue = (s.calls.filter TaskCall.kept).map TaskCall.task ++ waiting
  commands : ∀ call ∈ s.calls, call.command = 0
  result : s.res = s.calls.all TaskCall.success
  goesOn : s.stopped = false → ∀ call ∈ s.calls, call.advances = true
  stops : s.stopped = true → ∃ calls call, s.calls = calls ++ [call] ∧ call.advances = false ∧
    ∀ call ∈ calls, call.advances = true
  index : s.stopped = false → s.i = (s.calls.filter TaskCall.kept).length

theorem passLaw_start : PassLaw queue (startState queue world) queue where
  order := List.append_nil queue
  kept := rfl
  commands := nofun
  result := rfl
  goesOn _ := nofun
  stops := nofun
  index _ := rfl

/-- What is behind the place of a task that was called. -/
theorem handleResult_eq (s : PassState P V W) {call : TaskCall P V}
    {before waiting : List (TaskData P V)}
    (hqueue : s.queue = before ++ call.task :: waiting) (hi : s.i = before.length)
    (hres : s.res = true) :
    handleResult call.result s =
      { s with
        queue := before ++ (if call.kept then [call.task] else []) ++ waiting
        res := call.success
        stopped := s.stopped || !call.advances
        i := if call.kept && call.advances then s.i + 1 else s.i } := by
  -- the three flags of the result are independent, and each of them has its own branch
  unfold handleResult TaskCall.kept TaskCall.success TaskCall.advances TaskCall.success
  rw [hqueue, hi, arrayDelete_append, hres]
  cases isFlagSet (word call.result) tesPopMe <;>
    cases isFlagSet (word call.result) tesSuccess <;>
    cases isFlagSet (word call.result) tesDontAdvance <;>
    simp

/-- The task that is called in a step is the first one that waits. -/
theorem PassLaw.executeStep_cases {waiting : List (TaskData P V)}
    (h : PassLaw queue s waiting) :
    (executeStep process s = none ∧ (s.stopped = true ∨ waiting = [])) ∨
    ∃ (call : TaskCall P V) (world : W) (rest : List (TaskData P V)), s.stopped = false ∧
      waiting = call.task :: rest ∧ call.command = 0 ∧
      executeStep process s =
        some (handleResult call.result
          { s with
            queue := s.queue ++ call.added
            world := world
            calls := s.calls ++ [call] }) := by
  unfold executeStep
  cases hstopped : s.stopped with
  | true => exact Or.inl ⟨rfl, Or.inl rfl⟩
  | false =>
      have hi : s.i = ((s.calls.filter TaskCall.kept).map TaskCall.task).length := by
        rw [h.index hstopped, List.length_map]
      rw [if_neg Bool.false_ne_true]
      cases waiting with
      | nil =>
          have hplace : s.queue[s.i]? = none := by
            rw [hi, h.kept, List.append_nil, List.getElem?_eq_none le_rfl]
          rw [hplace]
          exact Or.inl ⟨rfl, Or.inr rfl⟩
      | cons task rest =>
          have hplace : s.queue[s.i]? = some task := by
            rw [hi, h.kept, getElem?_append_cons]
          obtain ⟨call, world, rfl, hcommand, hcall⟩ := callTask_eq process task 0 s
          refine Or.inr ⟨call, world, rest, rfl, rfl, hcommand, ?_⟩
          rw [hplace]
          dsimp only
          rw [hcall, hstopped]

theorem PassLaw.step {waiting : List (TaskData P V)} {s' : PassState P V W}
    (h : PassLaw queue s waiting) (hstep : executeStep process s = some s') :
    ∃ waiting', PassLaw queue s' waiting' := by
  rcases h.executeStep_cases process with ⟨hnone, -⟩ | ⟨call, world, rest, hstopped, rfl, hcommand, hcall⟩
  · rw [hnone] at hstep
    cases hstep
  rw [hcall] at hstep
  obtain rfl := Option.some.inj hstep
  -- the pass goes on, so `res` is still true and the place of the loop is behind all that is kept
  have hadvance := h.goesOn hstopped
  have hres : s.res = true := by
    rw [h.result, List.all_eq_true]
    intro c hc
    exact (Bool.and_eq_true_iff.mp (hadvance c hc)).1
  have hqueue : s.queue ++ call.added =
      (s.calls.filter TaskCall.kept).map TaskCall.task ++ call.task :: (rest ++ call.added) := by
    rw [h.kept, List.append_assoc, List.cons_append]
  have hi : s.i = ((s.calls.filter TaskCall.kept).map TaskCall.task).length := by
    rw [h.index hstopped, List.length_map]
  have hresult := handleResult_eq
    { s with
      queue := s.queue ++ call.added
      world := world
      calls := s.calls ++ [call] } hqueue hi hres
  rw [hresult]
  refine ⟨rest ++ call.added, ?_⟩
  constructor
  · exact order_concat queue h.order
  · cases hkept : call.kept <;> simp [hkept]
  · rw [List.forall_mem_append, List.forall_mem_singleton]
    exact ⟨h.commands, hcommand⟩
  · show call.success = _
    rw [List.all_append, ← h.result, hres]
    simp
  · intro hgoes c hc
    rcases List.mem_append.mp hc with hc | hc
    · exact hadvance c hc
    · obtain rfl := List.mem_singleton.mp hc
      simpa [hstopped] using hgoes
  · intro hstops
    refine ⟨s.calls, call, rfl, ?_, hadvance⟩
    simpa [hstopped] using hstops
  · intro hgoes
    have hcall : call.advances = true := by simpa [hstopped] using hgoes
    show (if call.kept && call.advances then s.i + 1 else s.i) = _
    rw [hcall, h.index hstopped]
    cases hkept : call.kept <;> simp [hkept]

theorem executeStep_calls (s s' : PassState P V W) (h : executeStep process s = some s') :
    s'.calls.length = s.calls.length + 1 := by
  unfold executeStep at h
  split_ifs at h
  split at h
  · cases h
  · rename_i task _
    obtain ⟨call, world, -, -, hcall⟩ := callTask_eq process task 0 s
    rw [hcall] at h
    obtain rfl := Option.some.inj h
    unfold handleResult
    dsimp only
    split_ifs <;> simp

/-- The state of a pass after so many steps. -/
def executeState (n : ℕ) : PassState P V W :=
  loop (executeStep process) n (startState queue world)

theorem executeState_law (n : ℕ) :
    ∃ waiting, PassLaw queue (executeState process queue world n) waiting := by
  apply loop_invariant (P := fun s => ∃ waiting, PassLaw queue s waiting)
  · exact ⟨queue, passLaw_start queue world⟩
  · rintro s s' ⟨waiting, h⟩ hstep
    exact h.step process queue hstep

theorem PassLaw.over_iff {waiting : List (TaskData P V)} (h : PassLaw queue s waiting) :
    Over (executeStep process) s ↔ s.stopped = true ∨ waiting = [] := by
  rcases h.executeStep_cases process with ⟨hnone, hend⟩ | ⟨call, world, rest, hstopped, rfl, -, hcall⟩
  · exact iff_of_true hnone hend
  · rw [Over, hcall, hstopped]
    simp

/-! ### A cleanup -/

/-- After a part of a cleanup: the tasks that were there or were added are, in their order, those
that were called and those that wait. -/
structure CleanupLaw (queue : List (TaskData P V)) (s : PassState P V W)
    (waiting : List (TaskData P V)) : Prop where
  order : queue ++ appended s.calls = s.calls.map TaskCall.task ++ waiting
  queue : s.queue = s.calls.map TaskCall.task ++ waiting
  commands : ∀ call ∈ s.calls, call.command = tcFreeResources
  result : s.res = s.calls.all TaskCall.success
  index : s.i = s.calls.length

theorem cleanupLaw_start : CleanupLaw queue (startState queue world) queue where
  order := List.append_nil queue
  queue := rfl
  commands := nofun
  result := rfl
  index := rfl

theorem CleanupLaw.cleanupStep_cases {waiting : List (TaskData P V)}
    (h : CleanupLaw queue s waiting) :
    (cleanupStep process s = none ∧ waiting = []) ∨
    ∃ (call : TaskCall P V) (world : W) (rest : List (TaskData P V)),
      waiting = call.task :: rest ∧ call.command = tcFreeResources ∧
      cleanupStep process s =
        some { s with
          queue := s.queue ++ call.added
          world := world
          calls := s.calls ++ [call]
          res := call.success && s.res
          i := s.i + 1 } := by
  have hi : s.i = (s.calls.map TaskCall.task).length := by
    rw [h.index, List.length_map]
  unfold cleanupStep
  cases waiting with
  | nil =>
      have hplace : s.queue[s.i]? = none := by
        rw [hi, h.queue, List.append_nil, List.getElem?_eq_none le_rfl]
      rw [hplace]
      exact Or.inl ⟨rfl, rfl⟩
  | cons task rest =>
      have hplace : s.queue[s.i]? = some task := by
        rw [hi, h.queue, getElem?_append_cons]
      obtain ⟨call, world, rfl, hcommand, hcall⟩ := callTask_eq process task tcFreeResources s
      refine Or.inr ⟨call, world, rest, rfl, hcommand, ?_⟩
      rw [hplace]
      dsimp only
      rw [hcall]
      rfl

theorem CleanupLaw.step {waiting : List (TaskData P V)} {s' : PassState P V W}
    (h : CleanupLaw queue s waiting) (hstep : cleanupStep process s = some s') :
    ∃ waiting', CleanupLaw queue s' waiting' := by
  rcases h.cleanupStep_cases process with ⟨hnone, -⟩ | ⟨call, world, rest, rfl, hcommand, hcall⟩
  · rw [hnone] at hstep
    cases hstep
  rw [hcall] at hstep
  obtain rfl := Option.some.inj hstep
  refine ⟨rest ++ call.added, ?_⟩
  constructor
  · exact order_concat queue h.order
  · rw [h.queue]
    simp
  · rw [List.forall_mem_append, List.forall_mem_singleton]
    exact ⟨h.commands, hcommand⟩
  · show (call.success && s.res) = _
    rw [List.all_append, ← h.result, Bool.and_comm]
    simp
  · show s.i + 1 = _
    rw [h.index]
    simp

theorem cleanupStep_calls (s s' : PassState P V W) (h : cleanupStep process s = some s') :
    s'.calls.length = s.calls.length + 1 := by
  unfold cleanupStep at h
  split at h
  · cases h
  · rename_i task _
    obtain ⟨call, world, -, -, hcall⟩ := callTask_eq process task tcFreeResources s
    rw [hcall] at h
    obtain rfl := Option.some.inj h
    simp

/-- The state of a cleanup after so many steps. -/
def cleanupState (n : ℕ) : PassState P V W :=
  loop (cleanupStep process) n (startState queue world)

theorem cleanupState_law (n : ℕ) :
    ∃ waiting, CleanupLaw queue (cleanupState process queue world n) waiting := by
  apply loop_invariant (P := fun s => ∃ waiting, CleanupLaw queue s waiting)
  · exact ⟨queue, cleanupLaw_start queue world⟩
  · rintro s s' ⟨waiting, h⟩ hstep
    exact h.step process queue hstep

theorem CleanupLaw.over_iff {waiting : List (TaskData P V)} (h : CleanupLaw queue s waiting) :
    Over (cleanupStep process) s ↔ waiting = [] := by
  rcases h.cleanupStep_cases process with ⟨hnone, hend⟩ | ⟨call, world, rest, rfl, -, hcall⟩
  · exact iff_of_true hnone hend
  · rw [Over, hcall]
    simp

/-! ### The law of the queue -/

/-- What a pass over a queue and its cleanup do.  A pass that is not over has called one task in
every step, so it ends if the tasks do not add others forever. -/
structure QueueLaw (unlocked : Bool) (n : ℕ) : Prop where
  pass : ∃ waiting, PassLaw queue (executeState process queue world n) waiting
  execute : ∀ r, executeTaskQueue process queue world true unlocked n = some r →
    ∃ (s : PassState P V W) (waiting : List (TaskData P V)), PassLaw queue s waiting ∧
      (s.stopped = true ∨ waiting = []) ∧ r = ⟨unlocked && s.res, s.queue, s.world, s.calls⟩
  executeEnds : (queue ++ appended (executeState process queue world n).calls).length < n →
    (executeTaskQueue process queue world true unlocked n).isSome = true
  cleanup : ∀ r, cleanupTaskQueue process queue world true unlocked n = some r →
    r.queue = [] ∧ r.calls.map TaskCall.task = queue ++ appended r.calls ∧
      (∀ call ∈ r.calls, call.command = tcFreeResources) ∧
      r.res = (unlocked && r.calls.all TaskCall.success)
  cleanupEnds : (queue ++ appended (cleanupState process queue world n).calls).length < n →
    (cleanupTaskQueue process queue world true unlocked n).isSome = true

theorem executeTaskQueue_locked (unlocked : Bool) (n : ℕ) :
    executeTaskQueue process queue world true unlocked n =
      if Over (executeStep process) (executeState process queue world n) then
        some ⟨unlocked && (executeState process queue world n).res,
          (executeState process queue world n).queue, (executeState process queue world n).world,
          (executeState process queue world n).calls⟩
      else none := rfl

theorem cleanupTaskQueue_locked (unlocked : Bool) (n : ℕ) :
    cleanupTaskQueue process queue world true unlocked n =
      if Over (cleanupStep process) (cleanupState process queue world n) then
        some ⟨unlocked && (cleanupState process queue world n).res, [],
          (cleanupState process queue world n).world, (cleanupState process queue world n).calls⟩
      else none := rfl

/-- If every step calls a task, the loop is over behind as many steps as there are tasks. -/
theorem over_of_length {step : PassState P V W → Option (PassState P V W)}
    (hcalls : ∀ s s', step s = some s' → s'.calls.length = s.calls.length + 1) {n : ℕ}
    {waiting : List (TaskData P V)}
    (horder : queue ++ appended (loop step n (startState queue world)).calls =
      (loop step n (startState queue world)).calls.map TaskCall.task ++ waiting)
    (hlength : (queue ++ appended (loop step n (startState queue world)).calls).length < n) :
    Over step (loop step n (startState queue world)) := by
  by_contra hover
  -- a loop that is not over has called as many tasks as it has made steps
  have hcount := loop_counts hcalls hover
  have hstart : (startState queue world : PassState P V W).calls.length = 0 := rfl
  rw [horder, List.length_append, List.length_map, hcount, hstart] at hlength
  omega

/-- For all tasks and all that they add, a pass and a cleanup keep the law. -/
theorem taskQueue_law (process : Processing P V W) (queue : List (TaskData P V)) (world : W)
    (unlocked : Bool) (n : ℕ) : QueueLaw process queue world unlocked n := by
  obtain ⟨waiting, hpass⟩ := executeState_law process queue world n
  obtain ⟨remaining, hcleanup⟩ := cleanupState_law process queue world n
  constructor
  · exact ⟨waiting, hpass⟩
  · intro r hr
    rw [executeTaskQueue_locked] at hr
    split_ifs at hr with hover
    obtain rfl := Option.some.inj hr
    exact ⟨_, waiting, hpass, (hpass.over_iff process).mp hover, rfl⟩
  · intro hlength
    rw [executeTaskQueue_locked, if_pos]
    · rfl
    · exact over_of_length queue world (executeStep_calls process) hpass.order hlength
  · intro r hr
    rw [cleanupTaskQueue_locked] at hr
    split_ifs at hr with hover
    obtain rfl := Option.some.inj hr
    obtain rfl := (hcleanup.over_iff process).mp hover
    refine ⟨rfl, ?_, hcleanup.commands, congrArg (unlocked && ·) hcleanup.result⟩
    rw [hcleanup.order, List.append_nil]
  · intro hlength
    rw [cleanupTaskQueue_locked, if_pos]
    · rfl
    · exact over_of_length queue world (cleanupStep_calls process) hcleanup.order hlength

end DxFeed.TaskQueue
