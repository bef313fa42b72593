import OpalCpp.Model.Server.SessionEntry

/-! # What placement and enqueueing do to a queue

`PlaceLocked` searches twice and edits once. `Placed` states every edit it can make in terms of a
split of the queue: an event replaces the first pending match of its key, takes the room of the
first pending droppable event of a full queue, or goes to the back. Everything later about the
queue is argued from these three cases and from the two ways an enqueue can go on from them.
-/

namespace OpalCpp.Server

/-- A registry holds at least one event for a session. -/
theorem Options.normalize_queueCapacity (options : Options) :
    options.normalize.queueCapacity = max options.queueCapacity 1 := by
  simp only [normalize]
  split_ifs <;> omega

namespace Entry

variable {Handle Tx : Type*}

/-- The edits of `PlaceLocked`, on a queue whose first `inFlight` slots are off limits. -/
inductive Placed (capacity inFlight : ℕ) (event : Tx) (delivery : DeliveryClass) :
    List (Queued Tx) → List (Queued Tx) → Prop
  | replace {before after : List (Queued Tx)} {old : Queued Tx}
      (pending : inFlight ≤ before.length) (coalesce : delivery.kind = .coalesce)
      (same : old.delivery.coalesces delivery.key = true)
      (first : ∀ other ∈ before.drop inFlight, other.delivery.coalesces delivery.key = false) :
      Placed capacity inFlight event delivery (before ++ old :: after)
        (before ++ { old with event } :: after)
  | evict {before after : List (Queued Tx)} {victim : Queued Tx}
      (pending : inFlight ≤ before.length)
      (unmatched : delivery.kind = .coalesce → ∀ other ∈ (before ++ victim :: after).drop inFlight,
        other.delivery.coalesces delivery.key = false)
      (full : capacity ≤ (before ++ victim :: after).length)
      (droppable : victim.delivery.kind = .droppable) :
      Placed capacity inFlight event delivery (before ++ victim :: after)
        (before ++ after ++ [⟨event, delivery⟩])
  | append {queue : List (Queued Tx)}
      (unmatched : delivery.kind = .coalesce → ∀ other ∈ queue.drop inFlight,
        other.delivery.coalesces delivery.key = false)
      (room : queue.length < capacity) :
      Placed capacity inFlight event delivery queue (queue ++ [⟨event, delivery⟩])

/-- The search for a match failed, so no pending event coalesces with the class. -/
theorem unmatched_of_matching {entry : Entry Handle Tx} {delivery : DeliveryClass}
    (missing : entry.matching delivery = none) (coalesce : delivery.kind = .coalesce) :
    ∀ other ∈ entry.queue.drop entry.inFlight, other.delivery.coalesces delivery.key = false := by
  rw [matching, if_pos coalesce] at missing
  exact findFrom_eq_none.mp missing

/-- The two searches decide the site. -/
theorem site_cases (capacity : ℕ) (entry : Entry Handle Tx) (delivery : DeliveryClass) :
    (∃ index, entry.matching delivery = some index ∧ entry.site capacity delivery = .replace index) ∨
    (entry.matching delivery = none ∧ capacity ≤ entry.queue.length ∧
      ((∃ index, entry.victim = some index ∧ entry.site capacity delivery = .evict index) ∨
        entry.site capacity delivery = .refuse)) ∨
    (entry.matching delivery = none ∧ entry.queue.length < capacity ∧
      entry.site capacity delivery = .append) := by
  unfold site
  cases search : entry.matching delivery with
  | some index => exact .inl ⟨index, rfl, rfl⟩
  | none =>
    refine .inr ?_
    by_cases full : capacity ≤ entry.queue.length
    · refine .inl ⟨rfl, full, ?_⟩
      simp only [full, ↓reduceIte]
      cases entry.victim with
      | some index => exact .inl ⟨index, rfl, rfl⟩
      | none => exact .inr rfl
    · exact .inr ⟨rfl, by omega, by simp only [full, ↓reduceIte]⟩

/-- A pending match decides the site, whatever the capacity. -/
theorem site_of_match (capacity : ℕ) {entry : Entry Handle Tx} {delivery : DeliveryClass}
    {before after : List (Queued Tx)} {old : Queued Tx} (split : entry.queue = before ++ old :: after)
    (pending : entry.inFlight ≤ before.length) (coalesce : delivery.kind = .coalesce)
    (same : old.delivery.coalesces delivery.key = true)
    (first : ∀ other ∈ before.drop entry.inFlight, other.delivery.coalesces delivery.key = false) :
    entry.site capacity delivery = .replace before.length := by
  have search : entry.matching delivery = some before.length := by
    rw [matching, if_pos coalesce, split]
    exact findFrom_split pending same first
  rw [site, search]

/-- Without a pending match nothing is replaced. -/
theorem site_of_unmatched (capacity : ℕ) {entry : Entry Handle Tx} {delivery : DeliveryClass}
    (unmatched : delivery.kind = .coalesce → ∀ other ∈ entry.queue.drop entry.inFlight,
      other.delivery.coalesces delivery.key = false) (index : ℕ) :
    entry.site capacity delivery ≠ .replace index := by
  have search : entry.matching delivery = none := by
    unfold matching
    split_ifs with coalesce
    · exact findFrom_eq_none.mpr (unmatched coalesce)
    · rfl
  rcases site_cases capacity entry delivery with
    ⟨found, match_eq, _⟩ | ⟨_, _, ⟨found, _, place⟩ | place⟩ | ⟨_, _, place⟩
  · rw [search] at match_eq
    cases match_eq
  all_goals
    rw [place]
    simp

/-- A placement either reports `queued` and makes one of the three edits, or changes nothing. -/
theorem placeLocked_cases (capacity : ℕ) (entry : Entry Handle Tx) (event : Tx)
    (delivery : DeliveryClass) :
    (∃ queue, Placed capacity entry.inFlight event delivery entry.queue queue ∧
      entry.placeLocked capacity event delivery = ({ entry with queue }, .queued)) ∨
    (capacity ≤ entry.queue.length ∧ entry.placeLocked capacity event delivery =
      (entry, if delivery.kind = .droppable then .dropped else .full)) := by
  unfold placeLocked
  rcases site_cases capacity entry delivery with
    ⟨index, search, place⟩ | ⟨search, full, ⟨index, found, place⟩ | place⟩ | ⟨search, room, place⟩
  · refine .inl ⟨_, ?_, by rw [place]⟩
    unfold matching at search
    split_ifs at search with coalesce
    obtain ⟨before, old, after, split, length, pending, same, first⟩ := findFrom_eq_some search
    rw [split, ← length, modify_split]
    exact .replace (by omega) coalesce same first
  · refine .inl ⟨_, ?_, by rw [place]⟩
    obtain ⟨before, old, after, split, length, pending, droppable, _⟩ := findFrom_eq_some found
    have unmatched := unmatched_of_matching search
    rw [split] at full unmatched
    rw [split, ← length, eraseIdx_split]
    exact .evict (by omega) unmatched full (by simpa only [beq_iff_eq] using droppable)
  · exact .inr ⟨full, by rw [place]⟩
  · exact .inl ⟨_, .append (unmatched_of_matching search) room, by rw [place]⟩

/-- An empty queue always has room once the capacity is positive. -/
theorem placeLocked_of_empty {capacity : ℕ} (positive : 0 < capacity) {entry : Entry Handle Tx}
    (empty : entry.queue = []) (event : Tx) (delivery : DeliveryClass) :
    entry.placeLocked capacity event delivery = ({ entry with queue := [⟨event, delivery⟩] }, .queued) := by
  have search : entry.matching delivery = none := by
    unfold matching
    split_ifs
    · rw [findFrom_eq_none, empty]
      simp
    · rfl
  have place : entry.site capacity delivery = .append := by
    simp only [site, search, empty, List.length_nil, Nat.le_zero_eq, positive.ne', ↓reduceIte]
  simp only [placeLocked, place, empty, List.nil_append]

namespace Placed

variable {capacity inFlight : ℕ} {event : Tx} {delivery : DeliveryClass}
  {queue placed : List (Queued Tx)}

/-- Placement never empties a queue. -/
theorem ne_nil (edit : Placed capacity inFlight event delivery queue placed) : placed ≠ [] := by
  cases edit <;> simp

/-- Placement never pushes a queue past its capacity. -/
theorem length_le (edit : Placed capacity inFlight event delivery queue placed)
    (bound : queue.length ≤ capacity) : placed.length ≤ capacity := by
  cases edit with
  | replace => simpa using bound
  | evict => simp at bound ⊢; omega
  | append unmatched room => simp; omega

/-- The slots off limits keep their events. -/
theorem take_eq (edit : Placed capacity inFlight event delivery queue placed)
    (inside : inFlight ≤ queue.length) : placed.take inFlight = queue.take inFlight := by
  cases edit with
  | replace pending => rw [List.take_append_of_le_length pending, List.take_append_of_le_length pending]
  | evict pending =>
    rw [List.append_assoc, List.take_append_of_le_length pending, List.take_append_of_le_length pending]
  | append => rw [List.take_append_of_le_length inside]

/-- An in-flight front stays where it is. -/
theorem front_kept {front : Queued Tx} {rest : List (Queued Tx)}
    (edit : Placed capacity 1 event delivery (front :: rest) placed) : ∃ tail, placed = front :: tail := by
  have kept := edit.take_eq (by simp)
  cases placed with
  | nil => cases kept
  | cons head tail =>
    obtain rfl : head = front := by simpa using kept
    exact ⟨tail, rfl⟩

end Placed

/-- An enqueue is refused without an effect, or places its event; it claims the front exactly when
the chain of an attached asynchronous entry is idle. -/
inductive EnqueueCase (options : Options) (entry : Entry Handle Tx) (event : Tx)
    (delivery : DeliveryClass) : Entry Handle Tx → Enqueued Tx → Prop
  | refused {outcome : Enqueued Tx} (silent : outcome.reported = false) :
      EnqueueCase options entry event delivery entry outcome
  | placed {queue : List (Queued Tx)}
      (edit : Placed options.queueCapacity entry.inFlight event delivery entry.queue queue)
      (taking : (entry.detached = true ∧ options.queueWhileDetached = true) ∨
        (entry.detached = false ∧ entry.stopping = false ∧
          (entry.asyncMode = true → entry.delivering = true))) :
      EnqueueCase options entry event delivery { entry with queue } (.queued none)
  | claimed {front : Queued Tx} {rest : List (Queued Tx)}
      (edit : Placed options.queueCapacity entry.inFlight event delivery entry.queue (front :: rest))
      (attached : entry.detached = false) (running : entry.stopping = false)
      (async : entry.asyncMode = true) (idle : entry.delivering = false) :
      EnqueueCase options entry event delivery
        { entry with queue := front :: rest, delivering := true } (.queued (some front.event))

theorem enqueue_cases (options : Options) (entry : Entry Handle Tx) (event : Tx)
    (delivery : DeliveryClass) :
    EnqueueCase options entry event delivery (entry.enqueue options event delivery).1
      (entry.enqueue options event delivery).2 := by
  unfold enqueue
  rcases placeLocked_cases options.queueCapacity entry event delivery with
    ⟨queue, edit, run⟩ | ⟨_, run⟩
  · rw [run]
    by_cases detached : entry.detached = true
    · rw [if_pos detached]
      by_cases retained : options.queueWhileDetached = true
      · rw [if_pos retained]
        exact .placed edit (.inl ⟨detached, retained⟩)
      · rw [if_neg retained]
        exact .refused rfl
    · rw [if_neg detached]
      by_cases stopping : entry.stopping = true
      · rw [if_pos stopping]
        exact .refused rfl
      · rw [if_neg stopping]
        rw [Bool.not_eq_true] at detached stopping
        by_cases claims : (entry.asyncMode && !entry.delivering) = true
        · simp only [if_pos claims]
          obtain ⟨async, idle⟩ : entry.asyncMode = true ∧ entry.delivering = false := by
            simpa using claims
          cases queue with
          | nil => exact absurd rfl edit.ne_nil
          | cons front rest =>
            simp only [claimLocked, stopping, Bool.false_eq_true, ↓reduceIte]
            simpa only [stopping] using EnqueueCase.claimed edit detached stopping async idle
        · simp only [if_neg claims]
          refine .placed edit (.inr ⟨detached, stopping, ?_⟩)
          intro async
          simpa [async] using claims
  · rw [run]
    split_ifs <;> exact .refused rfl

end Entry

end OpalCpp.Server
