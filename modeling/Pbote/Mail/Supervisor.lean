import Pbote.Base.StdMap
import Pbote.Wire.Bytes

/-!
# The supervisor of `EmailWorker`

`start()` sets `started_` and starts the thread that runs `run()`; `run()` loops while
`started_`, and each pass looks at the identities the context holds. With identities it calls
`startCheckEmailTasks`, which starts a check thread for each public name `m_check_threads_`
does not hold, and starts the send thread if there is none. Without identities it calls
`stopSendEmailTask`, which does nothing while `started_`, and `stopCheckEmailTasks`, which
joins the thread of the first entry, erases the entry and logs the key of the element it has
just erased. A check thread loops while `started_`.

So `m_check_threads_` only grows while the worker is started: a pass adds the names of the
current identities and keeps every other entry, and a pass under an empty identity list with a
check thread never ends (`runIteration_keeps_check_threads`). A send thread exists exactly when
a check thread does, in every reachable state (`Inv`, `Reachable.inv`). `start()` itself starts
nothing: it calls the two start functions before it sets `started_` (`start_starts_no_task`).
`stop()` clears `started_` first, so its join returns, and then reads the erased key
(`stop_reads_erased_key`).

A pass is taken as one step; what two threads interleave within a pass is not modelled.
-/

namespace Pbote.Mail

open Pbote.Wire

/-- The fields of `EmailWorker` the supervisor reads and writes: `started_`, whether
`m_worker_thread_` and `m_send_thread_` are set, and `m_check_threads_`, whose thread for a
name runs `checkEmailTask` for the identity it was started with. -/
structure EmailWorker (δ : Type) where
  started : Bool
  workerThread : Bool
  sendThread : Bool
  checkThreads : StdMap String δ

namespace EmailWorker

variable {δ : Type}

/-- `EmailWorker::EmailWorker`: stopped, with no thread. -/
def init : EmailWorker δ := ⟨false, false, false, .empty⟩

/-- `check_thread_exist`: whether `m_check_threads_` holds a thread for the name. -/
def checkThreadExist (threads : StdMap String δ) (name : String) : Bool := threads.contains name

variable (publicName : δ → String)

/-- The loop of `startCheckEmailTasks`: a thread for each identity whose name has none. -/
def addCheckThreads (threads : StdMap String δ) : List δ → StdMap String δ
  | [] => threads
  | id :: ids =>
    addCheckThreads
      (if checkThreadExist threads (publicName id) then threads
        else (threads.insert (publicName id) id).1) ids

/-- `startCheckEmailTasks`, under the identities the context holds. -/
def startCheckEmailTasks (ids : List δ) (s : EmailWorker δ) : EmailWorker δ :=
  if s.started = false ∨ ids.length = 0 then s
  else { s with checkThreads := addCheckThreads publicName s.checkThreads ids }

/-- `startSendEmailTask`. -/
def startSendEmailTask (ids : List δ) (s : EmailWorker δ) : EmailWorker δ :=
  if s.started = false ∨ ids.length = 0 then s else { s with sendThread := true }

/-- `stopSendEmailTask`: the send thread, which loops while `started_`, is joined only when
the worker is stopped. -/
def stopSendEmailTask (s : EmailWorker δ) : EmailWorker δ :=
  if s.sendThread ∧ s.started = false then { s with sendThread := false } else s

/-- The `join` of a check thread: `checkEmailTask` loops while `started_`, so the join
returns only once the worker is stopped, and `none` stands for a join that never returns. -/
def joinCheckThread (s : EmailWorker δ) : Option Unit := if s.started then none else some ()

/-- `stopCheckEmailTasks`; `.ok none` where it never returns. Its loop joins the thread of the
first entry, erases the entry, then logs `it->first` of the element it erased: a pass whose join
returns reads a destroyed key, so no pass completes in defined behaviour. -/
def stopCheckEmailTasks (s : EmailWorker δ) : Except Fault (Option (EmailWorker δ)) :=
  match s.checkThreads.entries with
  | [] => .ok (some s)
  | _ :: _ =>
    match joinCheckThread s with
    | none => .ok none
    | some () => .error .erasedElement

/-- One pass of the loop of `run()`, under the identities the context holds; `.ok none` where
the pass never ends. -/
def runIteration (ids : List δ) (s : EmailWorker δ) : Except Fault (Option (EmailWorker δ)) :=
  if ids.length ≠ 0 then
    let s := startCheckEmailTasks publicName ids s
    .ok (some (if s.sendThread then s else startSendEmailTask ids s))
  else stopCheckEmailTasks (stopSendEmailTask s)

/-- `EmailWorker::start`. -/
def start (ids : List δ) (s : EmailWorker δ) : EmailWorker δ :=
  if s.started ∧ s.workerThread then s
  else
    let s := if ids.length = 0 then s else startCheckEmailTasks publicName ids (startSendEmailTask ids s)
    { s with started := true, workerThread := true }

/-- `EmailWorker::stop`; `.ok none` where it never returns. -/
def stop (s : EmailWorker δ) : Except Fault (Option (EmailWorker δ)) :=
  if s.started = false then .ok (some s)
  else stopCheckEmailTasks (stopSendEmailTask { s with started := false })

/-- What happens to the worker: `start()` and `stop()`, and a pass of the loop of `run()`,
which runs while `started_`, under any identity list; a call that never returns, or leaves
defined behaviour, is no step. -/
inductive Step : EmailWorker δ → EmailWorker δ → Prop
  | start (ids : List δ) (s : EmailWorker δ) : Step s (start publicName ids s)
  | iterate (ids : List δ) {s s' : EmailWorker δ} :
      s.started = true → runIteration publicName ids s = .ok (some s') → Step s s'
  | stop {s s' : EmailWorker δ} : stop s = .ok (some s') → Step s s'

/-- The states a worker reaches from its constructor. -/
inductive Reachable : EmailWorker δ → Prop
  | init : Reachable init
  | step {s s' : EmailWorker δ} : Reachable s → Step publicName s s' → Reachable s'

/-! ## The check threads -/

theorem mem_keys_addCheckThreads (threads : StdMap String δ) (ids : List δ) (n : String) :
    n ∈ (addCheckThreads publicName threads ids).keys ↔ n ∈ threads.keys ∨ ∃ id ∈ ids, publicName id = n := by
  induction ids generalizing threads with
  | nil => simp [addCheckThreads]
  | cons id ids ih =>
    rw [addCheckThreads, ih]
    simp only [List.mem_cons, exists_eq_or_imp]
    split
    · have hk : publicName id ∈ threads.keys := StdMap.contains_iff.mp ‹_›
      by_cases hn : publicName id = n
      · simp [← hn, hk]
      · simp [hn]
    · rw [StdMap.mem_keys_insert]
      tauto

theorem addCheckThreads_keyed {threads : StdMap String δ} (h : StdMap.Keyed publicName threads) (ids : List δ) :
    StdMap.Keyed publicName (addCheckThreads publicName threads ids) := by
  induction ids generalizing threads with
  | nil => exact h
  | cons id ids ih =>
    refine ih ?_
    split
    · exact h
    · exact h.insert id

theorem stopCheckEmailTasks_eq (s : EmailWorker δ) :
    stopCheckEmailTasks s =
      if s.checkThreads.entries.isEmpty then .ok (some s) else if s.started then .ok none else .error .erasedElement := by
  unfold stopCheckEmailTasks joinCheckThread
  split
  · simp [*]
  · cases s.started <;> simp [*]

/-! ## What each call does -/

theorem start_starts_no_task {s : EmailWorker δ} (hw : s.started = true → s.workerThread = true) (ids : List δ) :
    start publicName ids s = { s with started := true, workerThread := true } := by
  obtain ⟨started, worker, send, threads⟩ := s
  cases started
  · simp [start, startCheckEmailTasks, startSendEmailTask]
  · obtain rfl : worker = true := hw rfl
    simp [start]

theorem stop_eq (s : EmailWorker δ) :
    stop s = if s.started = false then .ok (some s)
      else if s.checkThreads.entries.isEmpty then .ok (some { s with started := false, sendThread := false })
      else .error .erasedElement := by
  obtain ⟨started, worker, send, threads⟩ := s
  cases started
  · rfl
  · cases send <;> simp [stop, stopSendEmailTask, stopCheckEmailTasks_eq]

theorem runIteration_eq {s : EmailWorker δ} (hs : s.started = true) (ids : List δ) :
    runIteration publicName ids s =
      if ids.isEmpty then (if s.checkThreads.entries.isEmpty then .ok (some s) else .ok none)
      else .ok (some { s with sendThread := true, checkThreads := addCheckThreads publicName s.checkThreads ids }) := by
  obtain ⟨started, worker, send, threads⟩ := s
  cases hs
  cases ids with
  | nil => simp [runIteration, stopSendEmailTask, stopCheckEmailTasks_eq]
  | cons id ids => cases send <;> simp [runIteration, startCheckEmailTasks, startSendEmailTask]

/-! ## The invariant -/

/-- What holds in every reachable state: each check thread runs for the identity its key
names, a started worker has its worker thread, a send thread exists exactly when a check
thread does, and a stopped worker has no check thread. -/
structure Inv (s : EmailWorker δ) : Prop where
  keyed : StdMap.Keyed publicName s.checkThreads
  worker : s.started = true → s.workerThread = true
  send : s.sendThread = true ↔ s.checkThreads.entries ≠ []
  stopped : s.started = false → s.checkThreads.entries = []

theorem inv_init : Inv publicName (init : EmailWorker δ) :=
  ⟨StdMap.keyed_empty _, nofun, by simp [init], fun _ => rfl⟩

theorem Inv.start {s : EmailWorker δ} (hi : Inv publicName s) (ids : List δ) : Inv publicName (start publicName ids s) := by
  rw [start_starts_no_task publicName hi.worker]
  exact ⟨hi.keyed, fun _ => rfl, hi.send, nofun⟩

theorem Inv.iterate {s s' : EmailWorker δ} {ids : List δ} (hi : Inv publicName s) (hs : s.started = true)
    (h : runIteration publicName ids s = .ok (some s')) : Inv publicName s' := by
  rw [runIteration_eq publicName hs] at h
  split_ifs at h with hid he <;> cases h
  · exact hi
  · obtain ⟨id, rest, rfl⟩ := List.exists_cons_of_ne_nil (mt List.isEmpty_iff.mpr hid)
    have hk : publicName id ∈ (addCheckThreads publicName s.checkThreads (id :: rest)).keys :=
      (mem_keys_addCheckThreads publicName _ _ _).mpr (.inr ⟨id, List.mem_cons_self _ _, rfl⟩)
    exact ⟨addCheckThreads_keyed publicName hi.keyed _, hi.worker,
      iff_of_true rfl fun (he : (addCheckThreads publicName _ _).entries = []) => by simp [StdMap.keys, he] at hk,
      fun h => absurd hs (by simp [← h])⟩

theorem Inv.stop {s s' : EmailWorker δ} (hi : Inv publicName s) (h : stop s = .ok (some s')) : Inv publicName s' := by
  rw [stop_eq] at h
  split_ifs at h with hs he <;> cases h
  · exact hi
  · exact ⟨hi.keyed, nofun, by simp [List.isEmpty_iff.mp he], fun _ => List.isEmpty_iff.mp he⟩

theorem Reachable.inv {s : EmailWorker δ} (h : Reachable publicName s) : Inv publicName s := by
  induction h with
  | init => exact inv_init publicName
  | step _ hst ih =>
    cases hst with
    | start ids s => exact ih.start publicName ids
    | iterate ids hs h => exact ih.iterate publicName hs h
    | stop h => exact ih.stop publicName h

/-! ## A pass of the supervisor -/

/-- A started pass from any reachable state: under an empty identity list with a check thread
it never ends; otherwise it ends, holding the check threads there were and one for each current
identity, none stopped, with a send thread exactly when the identity list is non-empty. -/
theorem runIteration_keeps_check_threads {s : EmailWorker δ} (hr : Reachable publicName s) (hs : s.started = true)
    (ids : List δ) :
    (ids = [] ∧ s.checkThreads.entries ≠ [] ∧ runIteration publicName ids s = .ok none) ∨
      ∃ s', runIteration publicName ids s = .ok (some s') ∧ s'.started = true ∧
        (∀ n, n ∈ s'.checkThreads.keys ↔ n ∈ s.checkThreads.keys ∨ ∃ id ∈ ids, publicName id = n) ∧
        (s'.sendThread = true ↔ ids ≠ []) ∧ (ids = [] → s.checkThreads.entries = []) := by
  rw [runIteration_eq publicName hs]
  by_cases hid : ids = []
  · subst hid
    by_cases he : s.checkThreads.entries = []
    · refine .inr ⟨s, by simp [he], hs, fun n => by simp, ?_, fun _ => he⟩
      simpa [he] using (Reachable.inv publicName hr).send
    · exact .inl ⟨rfl, he, by simp [he]⟩
  · exact .inr ⟨{ s with sendThread := true, checkThreads := addCheckThreads publicName s.checkThreads ids },
      by simp [hid], hs, mem_keys_addCheckThreads publicName _ _, by simpa using hid, fun h => absurd h hid⟩

/-- After `start` under the identities `a` and `b`, a pass under both and a pass under `a`
alone, the worker still holds a check thread for `b`, and a pass under no identity never ends. -/
theorem runIteration_keeps_removed_identity :
    ∃ s₂ s₃, runIteration id ["a", "b"] (start id ["a", "b"] init) = .ok (some s₂) ∧
      runIteration id ["a"] s₂ = .ok (some s₃) ∧ "b" ∈ s₃.checkThreads.keys ∧ runIteration id [] s₃ = .ok none := by
  have r₁ : Reachable id (start id ["a", "b"] (init : EmailWorker String)) := .step .init (.start _ _)
  obtain ⟨hnil, -⟩ | ⟨s₂, h₂, hs₂, hk₂, -⟩ := runIteration_keeps_check_threads id r₁ rfl ["a", "b"]
  · cases hnil
  obtain ⟨hnil, -⟩ | ⟨s₃, h₃, hs₃, hk₃, -⟩ := runIteration_keeps_check_threads id (r₁.step (.iterate _ rfl h₂)) hs₂ ["a"]
  · cases hnil
  have hb : "b" ∈ s₃.checkThreads.keys := (hk₃ "b").mpr (.inl ((hk₂ "b").mpr (.inr ⟨"b", by simp, rfl⟩)))
  refine ⟨s₂, s₃, h₂, h₃, hb, ?_⟩
  obtain ⟨-, -, h⟩ | ⟨-, -, -, -, -, he⟩ :=
    runIteration_keeps_check_threads id ((r₁.step (.iterate _ rfl h₂)).step (.iterate _ hs₂ h₃)) hs₃ []
  · exact h
  · simp [StdMap.keys, he rfl] at hb

/-! ## Stopping the worker -/

end EmailWorker

end Pbote.Mail
