import Keyring.Proofs.Aggregator.History
import Mathlib.Data.List.Induction
/-!
# What threads leave in an aggregator that they share

`Step` lists what can happen next: a thread takes the lock, or it stores what it has made of the
aggregator and gives the lock back. `Sound` is the invariant. The thread that has the lock is the only
one inside an access, and what it has read is what the aggregator still holds; so the history is serial,
though the moves of the threads are not. What a thread has done and what it has left to do make up its
program. The start is sound (`sound_start`), and every step keeps it (`sound_step`).

So whatever the threads call and however they take turns, nothing is lost or doubled, and what they are
told is true when they are told it (`follow_merged`). Threads do not block each other for ever: as long
as one has calls to make, some thread can move (`exists_step`), and the moves left get fewer
(`Step.movesLeft`).
-/

namespace Keyring.Aggregator

/-- The accesses that a thread has not ended. -/
def Thread.left : Thread → List Access
  | .outside todo => todo
  | .inside _ access todo => access :: todo

theorem Thread.left_of_hasEnded {t : Thread} (h : t.hasEnded = true) : t.left = [] := by
  cases t with
  | outside todo => cases todo <;> simp_all [Thread.hasEnded, Thread.left]
  | inside => simp [Thread.hasEnded] at h

/-- The moves that a thread has left. -/
def Thread.movesLeft : Thread → Nat
  | .outside todo => 2 * todo.length
  | .inside _ _ todo => 2 * todo.length + 1

namespace Shared

variable {programs : List (List Call)} {shared shared' : Shared} {i : Nat}

/-- What thread `i` has done. -/
def eventsOf (shared : Shared) (i : Nat) : List Event :=
  (shared.history.filter (·.1 == i)).map Prod.snd

/-! ## Steps -/

/-- One move that changes something. -/
inductive Step (shared : Shared) (i : Nat) : Shared → Prop
  | enter {access todo} : shared.threads[i]? = some (.outside (access :: todo)) →
      shared.holder? = none →
      Step shared i
        { shared with
          holder? := some i
          threads := shared.threads.set i (.inside shared.aggregator access todo) }
  | leave {read access todo} : shared.threads[i]? = some (.inside read access todo) →
      Step shared i
        { aggregator := (access.stored? read).getD shared.aggregator
          holder? := none
          threads := shared.threads.set i (.outside todo)
          history := shared.history ++ [(i, access.event read)] }

/-- A move is a step or none. -/
theorem move_cases (shared : Shared) (i : Nat) :
    shared.move i = shared ∨ Step shared i (shared.move i) := by
  unfold move
  split
  · next ht =>
    split
    · exact .inl rfl
    · next hfree => exact .inr (.enter ht (by simpa using hfree))
  · next ht => exact .inr (.leave ht)
  · exact .inl rfl

/-- Every step is the move of its thread. -/
theorem Step.move_eq (h : Step shared i shared') : shared.move i = shared' := by
  cases h with
  | enter ht hfree => simp [move, ht, hfree]
  | leave ht => simp [move, ht]

@[simp] theorem follow_nil (shared : Shared) : follow [] shared = shared := rfl

@[simp] theorem follow_cons (i : Nat) (schedule : List Nat) (shared : Shared) :
    follow (i :: schedule) shared = follow schedule (shared.move i) := rfl

theorem follow_append (s t : List Nat) (shared : Shared) :
    follow (s ++ t) shared = follow t (follow s shared) :=
  List.foldl_append

/-! ## The invariant -/

structure Sound (programs : List (List Call)) (shared : Shared) : Prop where
  /-- A thread inside an access has the lock, and what it has read still holds. -/
  inside : ∀ i read access todo, shared.threads[i]? = some (.inside read access todo) →
    shared.holder? = some i ∧ read = shared.aggregator
  /-- The thread that has the lock is inside an access. -/
  holder : ∀ i, shared.holder? = some i →
    ∃ read access todo, shared.threads[i]? = some (.inside read access todo)
  /-- What a thread has done and what it has left make up its program. -/
  progress : ∀ i : Nat,
    (shared.threads[i]?.map fun t => (shared.eventsOf i).map Event.access ++ t.left) =
      programs[i]?.map (·.flatMap Call.accesses)
  numbered : ∀ e ∈ shared.history, e.1 < programs.length
  serial : Serial shared.history shared.aggregator

theorem sound_start (programs : List (List Call)) : Sound programs (start programs) where
  inside := by simp [start]
  holder := by simp [start]
  progress := by simp [start, eventsOf, Thread.left, Function.comp_def]
  numbered := by simp [start]
  serial := .nil

section Change
variable {t t' : Thread} {j : Nat}

theorem Sound.lt_length (h : Sound programs shared) (ht : shared.threads[i]? = some t) :
    i < programs.length := by
  have hp := h.progress i
  rw [ht] at hp
  cases hi : programs[i]? with
  | none => simp [hi] at hp
  | some calls => exact (List.getElem?_eq_some_iff.1 hi).1

/-- If nobody but thread `i` has the lock, and thread `i` becomes `t'`, then only that can be inside. -/
theorem Sound.eq_of_inside_set (h : Sound programs shared) (ht : shared.threads[i]? = some t)
    (hothers : ∀ j, i ≠ j → shared.holder? ≠ some j) {read access todo}
    (hj : (shared.threads.set i t')[j]? = some (.inside read access todo)) :
    i = j ∧ t' = .inside read access todo := by
  by_cases hij : i = j
  · subst hij
    rw [List.getElem?_set_self (List.getElem?_eq_some_iff.1 ht).1] at hj
    exact ⟨rfl, Option.some.inj hj⟩
  · rw [List.getElem?_set_ne hij] at hj
    exact absurd (h.inside j read access todo hj).1 (hothers j hij)

/-- One thread gets further: what it has done now and what it has left are what they were together. -/
theorem Sound.progress_set (h : Sound programs shared) (ht : shared.threads[i]? = some t)
    (hthreads : shared'.threads = shared.threads.set i t')
    (hself : (shared'.eventsOf i).map Event.access ++ t'.left =
      (shared.eventsOf i).map Event.access ++ t.left)
    (hother : ∀ j, i ≠ j → shared'.eventsOf j = shared.eventsOf j) (j : Nat) :
    (shared'.threads[j]?.map fun t => (shared'.eventsOf j).map Event.access ++ t.left) =
      programs[j]?.map (·.flatMap Call.accesses) := by
  rw [← h.progress j, hthreads]
  by_cases hij : i = j
  · subst hij
    rw [List.getElem?_set_self (List.getElem?_eq_some_iff.1 ht).1, ht]
    exact congrArg some hself
  · rw [List.getElem?_set_ne hij, hother j hij]

end Change

/-- Every step keeps the invariant. -/
theorem sound_step (h : Sound programs shared) (hs : Step shared i shared') :
    Sound programs shared' := by
  cases hs with
  | @enter access todo ht hfree =>
    refine ⟨?_, ?_, h.progress_set ht rfl rfl fun _ _ => rfl, h.numbered, h.serial⟩
    · intro j read access' todo' hj
      obtain ⟨rfl, he⟩ := h.eq_of_inside_set ht (by simp [hfree]) hj
      cases he
      exact ⟨rfl, rfl⟩
    · intro j hj
      obtain rfl : i = j := by simpa using hj
      exact ⟨_, _, _, List.getElem?_set_self (List.getElem?_eq_some_iff.1 ht).1⟩
  | @leave read access todo ht =>
    -- What is stored is made of what was read, and that is still what the aggregator holds.
    obtain ⟨hlock, rfl⟩ := h.inside i read access todo ht
    refine ⟨?_, by simp, h.progress_set ht rfl ?_ ?_, ?_, h.serial.next i access⟩
    · intro j read access' todo' hj
      obtain ⟨-, he⟩ := h.eq_of_inside_set ht (by simp [hlock]) hj
      cases he
    · simp [eventsOf, Thread.left]
    · intro j hij
      simp [eventsOf, hij]
    · intro e he
      rcases List.mem_append.1 he with he | he
      · exact h.numbered e he
      · rw [List.mem_singleton.1 he]
        exact h.lt_length ht

theorem sound_follow (h : Sound programs shared) (schedule : List Nat) :
    Sound programs (follow schedule shared) := by
  induction schedule generalizing shared with
  | nil => exact h
  | cons i schedule ih =>
    rw [follow_cons]
    rcases move_cases shared i with he | hs
    · rw [he]
      exact ih h
    · exact ih (sound_step h hs)

/-! ## Every run can be brought to an end -/

/-- The moves that the threads have left. -/
def movesLeft (shared : Shared) : Nat :=
  shared.threads.foldr (fun t n => t.movesLeft + n) 0

theorem foldr_movesLeft_set {threads : List Thread} {t t' : Thread} (ht : threads[i]? = some t)
    (hless : t'.movesLeft + 1 = t.movesLeft) :
    (threads.set i t').foldr (fun t n => t.movesLeft + n) 0 + 1 =
      threads.foldr (fun t n => t.movesLeft + n) 0 := by
  induction threads generalizing i with
  | nil => simp at ht
  | cons first threads ih =>
    cases i with
    | zero =>
      obtain rfl : first = t := by simpa using ht
      simp only [List.set_cons_zero, List.foldr_cons]
      omega
    | succ i =>
      have := ih (by simpa using ht)
      simp only [List.set_cons_succ, List.foldr_cons]
      omega

/-- Every step takes one of the moves that are left. -/
theorem Step.movesLeft (h : Step shared i shared') :
    shared'.movesLeft + 1 = shared.movesLeft := by
  cases h with
  | enter ht _ =>
    apply foldr_movesLeft_set ht
    simp only [Thread.movesLeft, List.length_cons]
    omega
  | leave ht => exact foldr_movesLeft_set ht rfl

/-- Unless all threads have ended, one of them can move. -/
theorem exists_step (h : Sound programs shared) (hopen : shared.isFinished = false) :
    ∃ i shared', Step shared i shared' := by
  cases hlock : shared.holder? with
  | some i =>
    obtain ⟨read, access, todo, ht⟩ := h.holder i hlock
    exact ⟨i, _, .leave ht⟩
  | none =>
    obtain ⟨t, hmem, hopen⟩ : ∃ t ∈ shared.threads, t.hasEnded = false := by
      simpa [isFinished] using hopen
    obtain ⟨i, ht⟩ := List.mem_iff_getElem?.1 hmem
    cases t with
    | inside read access todo => exact ⟨i, _, .leave ht⟩
    | outside todo =>
      cases todo with
      | nil => simp [Thread.hasEnded] at hopen
      | cons access todo => exact ⟨i, _, .enter ht hlock⟩

/-- Some thread makes one of the moves that are left, until none is. -/
theorem exists_finish {shared : Shared} (h : Sound programs shared) :
    ∃ more, (follow more shared).isFinished := by
  by_cases hdone : shared.isFinished
  · exact ⟨[], hdone⟩
  · obtain ⟨i, shared', hs⟩ := exists_step h (by simpa using hdone)
    have hless := hs.movesLeft
    obtain ⟨more, hmore⟩ := exists_finish (sound_step h hs)
    refine ⟨i :: more, ?_⟩
    rwa [follow_cons, hs.move_eq]
termination_by shared.movesLeft

/-! ## What the threads leave and what they are told -/

theorem access_eventsOf (h : Sound programs shared) (hdone : shared.isFinished = true)
    {calls : List Call} (hcalls : programs[i]? = some calls) :
    (shared.eventsOf i).map Event.access = calls.flatMap Call.accesses := by
  have hp := h.progress i
  rw [hcalls] at hp
  obtain ⟨t, ht, hp⟩ := Option.map_eq_some_iff.1 hp
  have hended : t.hasEnded = true := List.all_eq_true.1 hdone t (List.mem_of_getElem? ht)
  rwa [Thread.left_of_hasEnded hended, List.append_nil] at hp

/-- What a thread has added when it has ended is what its calls add. -/
theorem credentials_eventsOf (h : Sound programs shared) (hdone : shared.isFinished = true)
    {calls : List Call} (hcalls : programs[i]? = some calls) :
    (shared.eventsOf i).filterMap (·.access.credential?) = calls.flatMap Call.credentials := by
  calc (shared.eventsOf i).filterMap (·.access.credential?)
      = ((shared.eventsOf i).map Event.access).filterMap Access.credential? := by
        rw [List.filterMap_map]
        rfl
    _ = (calls.flatMap Call.accesses).filterMap Access.credential? := by
        rw [access_eventsOf h hdone hcalls]
    _ = calls.flatMap Call.credentials := by
        simp only [List.filterMap_flatMap, filterMap_accesses]

theorem isMerge_results (h : Sound programs shared) (hdone : shared.isFinished = true) :
    IsMerge (programs.map (·.flatMap Call.credentials)) shared.aggregator.results := by
  have hmerge := (isMerge_numbered h.numbered).filterMap (·.access.credential?)
  have hthreads : ((List.range programs.length).map shared.eventsOf).map
        (·.filterMap (·.access.credential?)) =
      programs.map (·.flatMap Call.credentials) := by
    apply List.ext_getElem?
    intro i
    by_cases hi : i < programs.length
    · have hcalls := List.getElem?_eq_getElem hi
      simp [hi, credentials_eventsOf h hdone hcalls]
    · simp [hi]
  unfold eventsOf at hthreads
  rw [hthreads, List.filterMap_map] at hmerge
  rw [h.serial.results_eq]
  exact hmerge

theorem history_move (shared : Shared) (i : Nat) :
    (shared.move i).history = shared.history ∨
      ∃ event, (shared.move i).history = shared.history ++ [(i, event)] := by
  rcases move_cases shared i with he | hs
  · exact .inl (by rw [he])
  · generalize shared.move i = shared' at hs
    cases hs with
    | enter => exact .inl rfl
    | leave => exact .inr ⟨_, rfl⟩

/-- Every entry of the history was made by a move of its thread. -/
theorem exists_moment {schedule : List Nat} {earlier : List (Nat × Event)} {event : Event}
    (h : earlier ++ [(i, event)] <+: (follow schedule (start programs)).history) :
    ∃ before, before ++ [i] <+: schedule ∧ (follow before (start programs)).history = earlier ∧
      (follow (before ++ [i]) (start programs)).history = earlier ++ [(i, event)] := by
  -- A history grows at its end, so the last turn is looked at first.
  induction schedule using List.reverseRecOn with
  | nil => simp [start] at h
  | append_singleton schedule j ih =>
    have hlast : follow (schedule ++ [j]) (start programs) =
        (follow schedule (start programs)).move j := follow_append _ _ _
    have hthen : earlier ++ [(i, event)] <+: (follow schedule (start programs)).history →
        ∃ before, before ++ [i] <+: schedule ++ [j] ∧
          (follow before (start programs)).history = earlier ∧
          (follow (before ++ [i]) (start programs)).history = earlier ++ [(i, event)] := by
      intro h
      obtain ⟨before, hbefore, hmade⟩ := ih h
      exact ⟨before, hbefore.trans (List.prefix_append _ _), hmade⟩
    rcases history_move (follow schedule (start programs)) j with he | ⟨last, he⟩
    · rw [hlast, he] at h
      exact hthen h
    · rw [hlast, he, List.prefix_concat_iff] at h
      rcases h with h | h
      · obtain ⟨rfl, h⟩ := List.append_inj' h rfl
        obtain ⟨rfl, rfl⟩ : i = j ∧ event = last := by simpa using h
        exact ⟨schedule, List.prefix_rfl, rfl, by rw [hlast, he]⟩
      · exact hthen h

/-- What a thread is told is so when it is told. -/
theorem exists_isTrueOf {schedule : List Nat} {earlier later : List (Nat × Event)} {event : Event}
    (he : (follow schedule (start programs)).history = earlier ++ (i, event) :: later) :
    ∃ before, before ++ [i] <+: schedule ∧ (follow before (start programs)).history = earlier ∧
      (follow (before ++ [i]) (start programs)).history = earlier ++ [(i, event)] ∧
      event.IsTrueOf (follow before (start programs)).aggregator := by
  have hserial := (sound_follow (sound_start programs) schedule).serial
  obtain ⟨a, access, ha, rfl⟩ := hserial.exists_of_append _ _ _ _ he
  obtain ⟨before, hbefore, rfl, hmade⟩ := exists_moment ⟨later, by rw [he, List.append_assoc]; rfl⟩
  refine ⟨before, hbefore, rfl, hmade, ?_⟩
  -- The accesses before it leave one aggregator only, and that is the one of this moment.
  have hthen := (sound_follow (sound_start programs) before).serial
  rw [hthen.eq_foldl, ← ha.eq_foldl]
  exact isTrueOf_event access a

/-- What a thread leaves that has the aggregator to itself is what its calls make of it in turn. -/
theorem aggregator_alone {calls : List Call} {schedule : List Nat}
    (hdone : (follow schedule (start [calls])).isFinished = true) :
    (follow schedule (start [calls])).aggregator =
      calls.foldl (fun a call => call.apply a) .empty := by
  have h := sound_follow (sound_start [calls]) schedule
  have hall : (follow schedule (start [calls])).history.filter (·.1 == 0) =
      (follow schedule (start [calls])).history := by
    rw [List.filter_eq_self]
    intro e he
    simpa using h.numbered e he
  have haccesses := access_eventsOf (i := 0) h hdone rfl
  rw [eventsOf, hall, List.map_map] at haccesses
  calc (follow schedule (start [calls])).aggregator
      = (calls.flatMap Call.accesses).foldl (fun a access => access.apply a) .empty := by
        rw [h.serial.eq_foldl, ← haccesses]
        rfl
    _ = calls.foldl (fun a call => call.apply a) .empty := by
        simp only [List.foldl_flatMap, foldl_accesses]

/-- Threads call an empty aggregator and take turns as a schedule says. They can always be brought to
their end, and then each has made all its accesses and the aggregator holds a merge of the credentials
that they added. A copy is a prefix of every copy that is taken later. Each copy and each number agrees
with what the aggregator holds when its thread makes the move that ends the access. -/
theorem follow_merged (programs : List (List Call)) (schedule : List Nat) :
    let shared := follow schedule (start programs)
    (∃ more, (follow more shared).isFinished = true) ∧
      (shared.isFinished = true →
        IsMerge (programs.map (·.flatMap Call.credentials)) shared.aggregator.results ∧
          ∀ i calls, programs[i]? = some calls →
            (shared.eventsOf i).map Event.access = calls.flatMap Call.accesses) ∧
      (copies shared.history).Pairwise (· <+: ·) ∧
      ∀ earlier i event later, shared.history = earlier ++ (i, event) :: later →
        ∃ before, before ++ [i] <+: schedule ∧
          (follow before (start programs)).history = earlier ∧
          (follow (before ++ [i]) (start programs)).history = earlier ++ [(i, event)] ∧
          event.IsTrueOf (follow before (start programs)).aggregator := by
  intro shared
  have h : Sound programs shared := sound_follow (sound_start programs) schedule
  refine ⟨exists_finish h, ?_, h.serial.copies_pairwise, ?_⟩
  · intro hdone
    exact ⟨isMerge_results h hdone, fun i calls hcalls => access_eventsOf h hdone hcalls⟩
  · intro earlier i event later he
    exact exists_isTrueOf he

/-- A credential with nothing but an identifier. -/
def named (identifier : String) : Credential where
  identifier := identifier
  keyType := "file-raw"

/-- One thread collects, and another adds a credential of its own and counts. -/
def twoThreads : List (List Call) :=
  [[.collect [some (named "0xaa"), none, some (named "0xbb")]], [.add (named "0xcc"), .size]]

/-- The second thread adds its credential between those of the first, which it then has to wait for
before it can count. -/
def turns : List Nat :=
  [0, 0, 1, 1, 0, 1, 0, 1, 1, 0, 0]

theorem follow_merged_twoThreads :
    (follow turns (start twoThreads)).isFinished = true ∧
      (follow turns (start twoThreads)).aggregator.results =
        [named "0xaa", named "0xcc", named "0xbb"] ∧
      IsMerge [[named "0xaa", named "0xbb"], [named "0xcc"]]
        (follow turns (start twoThreads)).aggregator.results ∧
      copies (follow turns (start twoThreads)).history =
        [[named "0xaa", named "0xcc", named "0xbb"]] :=
  ⟨rfl, rfl, ((follow_merged twoThreads turns).2.1 rfl).1, rfl⟩

end Shared

end Keyring.Aggregator
