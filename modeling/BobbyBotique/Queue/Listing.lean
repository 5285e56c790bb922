import BobbyBotique.Foundation.Paging
import BobbyBotique.Queue.Backend

/-!
# Listing jobs

The cursor of the local store counts the records that pass the filter, the
cursor of the script counts the entries of the index.  A change of state
between two pages moves the positions of the first kind and not of the second.
-/

namespace BobbyBotique.Queue

/-- The filter of a listing. -/
def JobRecord.passes (m : JobRecord) (lane : Option Lane) (state : Option JobState) : Bool :=
  (lane.elim true fun wanted => decide (m.lane = wanted)) &&
    state.elim true fun wanted => decide (m.state = wanted)

namespace MemoryQueueStore

variable {s : MemoryQueueStore} {lane : Option Lane} {filter : Option JobState}

theorem listed_nodup (good : s.ledger.WellFormed) :
    ((s.listed lane filter).map fun m => m.taskId).Nodup := by
  have apart := s.jobs.values_apart (fun m => m.taskId) fun id m found => named good found
  have kept := apart.sublist (List.filter_sublist (p := fun m =>
    (lane.elim true fun wanted => decide (m.lane = wanted)) &&
      filter.elim true fun wanted => decide (m.state = wanted)))
  apply List.Perm.nodup ((List.perm_insertionSort _ _).symm.map _)
  exact List.pairwise_map.mpr kept

/-- A page of the local store is a window of the records that pass the filter. -/
theorem listJobs_page {cursor : Option Int} {limit : Int} {page : JobPage}
    (replied : s.listJobs lane filter cursor limit = .page page) :
    let ids := (s.listed lane filter).map fun m => m.taskId
    let start := (cursor.getD 0).toNat
    (page.items.map fun item => item.taskId) = (ids.drop start).take limit.toNat ∧ page.nextCursor =
        if ids.length > start + limit.toNat then some (start + limit.toNat) else none := by
  unfold listJobs at replied
  split at replied
  · cases replied
  · split at replied
    · cases replied
    · cases replied
      simp only [List.map_map, List.map_take, List.map_drop, List.length_map, Function.comp_def]
      exact ⟨rfl, trivial⟩

end MemoryQueueStore

namespace Script

variable {db : Db} {lane : Option Lane} {filter : Option JobState}

/-- The ids of the index in admission order. -/
def indexed (db : Db) : List TaskId :=
  (db.index.items.insertionSort fun first second => first.2 ≤ second.2).map Prod.fst

/-- What the scan keeps of one id. -/
def found (db : Db) (lane : Option Lane) (filter : Option JobState) (id : TaskId) :
    Option ScriptJob :=
  (db.jobs.get? id).filter fun m => m.passes lane filter

theorem indexed_nodup (db : Db) : (indexed db).Nodup := by
  apply List.Perm.nodup ((List.perm_insertionSort _ _).symm.map _)
  have keys : db.index.items.map Prod.fst = db.index.keys := by
    simp only [Dict.items, List.map_map, Function.comp_def]
    rfl
  rw [keys]
  exact db.index.keys_nodup

theorem indexed_length (db : Db) : (indexed db).length = db.index.keys.length := by
  simp only [indexed, List.length_map, List.length_insertionSort, Dict.items, Dict.keys,
    AList.keys, List.keys]

/-- The scan takes some part of its window, from the front. -/
theorem listScan_spec (db : Db) (lane : Option Lane) (filter : Option JobState) (limit : Nat)
    (window : List TaskId) (offset : Nat) (items : List JobSnapshot) :
    ∃ taken ≤ window.length, listScan db lane filter limit window offset items =
      (items ++ (window.take taken).filterMap fun id =>
        (found db lane filter id).map fun m => m.snapshot, offset + taken) := by
  induction window generalizing offset items with
  | nil => exact ⟨0, le_refl 0, by simp [listScan]⟩
  | cons id rest ih =>
    simp only [listScan]
    have one : ((db.jobs.get? id).filter fun m =>
        (lane.elim true fun wanted => decide (m.lane = wanted)) &&
          filter.elim true fun wanted => decide (m.state = wanted)) =
        found db lane filter id := rfl
    rw [one]
    split
    · refine ⟨1, Nat.succ_le_succ (Nat.zero_le _), ?_⟩
      cases kept : found db lane filter id <;> simp [kept]
    · obtain ⟨taken, within, scanned⟩ := ih (offset + 1)
        ((found db lane filter id).elim items fun m => items ++ [m.snapshot])
      refine ⟨taken + 1, Nat.succ_le_succ within, ?_⟩
      rw [scanned]
      cases kept : found db lane filter id with
      | none | some => simp [kept, Nat.add_comm, Nat.add_left_comm]

/-- The ids of a scan are those of the records that pass, each under its own id. -/
theorem count_scan (good : (ledger db).WellFormed) {id : TaskId} {m : ScriptJob}
    (present : db.jobs.get? id = some m) (passes : m.passes lane filter = true)
    (window : List TaskId) :
    ((window.filterMap fun id =>
      (found db lane filter id).map fun m => m.snapshot).map fun item => item.taskId).count id =
        window.count id := by
  induction window with
  | nil => rfl
  | cons first rest ih =>
    rw [List.filterMap_cons, List.count_cons]
    cases kept : found db lane filter first with
    | none =>
      have apart : first ≠ id := by
        rintro rfl
        rw [found, present, Option.filter_some, passes] at kept
        cases kept
      simpa [apart] using ih
    | some other =>
      have stored : db.jobs.get? first = some other :=
        (Option.filter_eq_some_iff.mp kept).1
      have named : other.snapshot.taskId = first := named good stored
      rw [Option.map_some, List.map_cons, List.count_cons, named, ih]

theorem list_page (good : (ledger db).WellFormed) {cursor : Option Int} {limit : Int}
    {page : JobPage} (replied : list db lane filter cursor limit = .page page) :
    ∃ stop, (cursor.getD 0).toNat ≤ stop ∧
      (page.nextCursor = some stop ∨ page.nextCursor = none ∧ (indexed db).length ≤ stop) ∧
      ∀ id m, db.jobs.get? id = some m → m.passes lane filter = true →
        (page.items.map fun item => item.taskId).count id =
          (((indexed db).drop (cursor.getD 0).toNat).take
            (stop - (cursor.getD 0).toNat)).count id := by
  unfold list at replied
  split at replied
  · cases replied
  · split at replied
    · cases replied
    · have window : (((db.index.items.insertionSort fun first second =>
          first.2 ≤ second.2).drop (cursor.getD 0).toNat).take 256).map Prod.fst =
          ((indexed db).drop (cursor.getD 0).toNat).take 256 := by
        rw [List.map_take, List.map_drop, indexed]
      simp only [window] at replied
      obtain ⟨taken, within, scanned⟩ := listScan_spec db lane filter limit.toNat
        (((indexed db).drop (cursor.getD 0).toNat).take 256)
        (cursor.getD 0).toNat []
      rw [scanned] at replied
      cases replied
      refine ⟨(cursor.getD 0).toNat + taken, Nat.le_add_right _ _, ?_, ?_⟩
      · rw [indexed_length]
        dsimp only
        split
        · exact .inl rfl
        · rename_i past
          exact .inr ⟨rfl, not_lt.mp past⟩
      · intro id m present passes
        have short : taken ≤ 256 := within.trans (List.length_take_le _ _)
        simp only [List.nil_append]
        rw [count_scan good present passes, List.take_take, Nat.min_eq_left short,
          Nat.add_sub_cancel_left]

/-- A page of the script covers a window of the index. -/
theorem list_covers (good : (ledger db).WellFormed) {cursor : Option Int} {limit : Int}
    {page : JobPage} (replied : list db lane filter cursor limit = .page page) {id : TaskId}
    {m : ScriptJob} (present : db.jobs.get? id = some m) (passes : m.passes lane filter = true)
    (listed : id ∈ indexed db) :
    Page.Covers ⟨indexed db, (cursor.getD 0).toNat,
      page.items.map fun item => item.taskId, page.nextCursor⟩ id := by
  obtain ⟨stop, ahead, next, items⟩ := list_page good replied
  refine ⟨stop, ahead, next, ?_⟩
  rw [items id m present passes, count_window (indexed_nodup db) listed, Nat.add_sub_cancel' ahead]
  rfl

end Script

namespace Backend

/-- The sequence that the cursor of a page counts, after the sweep of the call. -/
def entries : (backend : Backend) → backend.State → Option Lane → Option JobState → List TaskId
  | .memory, state, lane, filter =>
    (((MemoryMachine.store state).sweep (MemoryMachine.clock state)).listed lane filter).map
      fun m => m.taskId
  | .redis, state, _, _ =>
    Script.indexed (Script.sweep (ScriptMachine.db state) (ScriptMachine.clock state))

/-- The job passes the filter when the page is read. -/
def shows : (backend : Backend) → backend.State → Option Lane → Option JobState → TaskId → Bool
  | .memory, state, lane, filter, id =>
    (((MemoryMachine.store state).sweep (MemoryMachine.clock state)).jobs.get? id).any
      fun m => m.passes lane filter
  | .redis, state, lane, filter, id =>
    ((Script.sweep (ScriptMachine.db state) (ScriptMachine.clock state)).jobs.get? id).any
      fun m => m.passes lane filter

/-- A page as it was read, with the state of the store before the call. -/
structure PageCall (backend : Backend) where
  state : backend.State
  page : Page TaskId

/-- A page as the store returns it. -/
def read (backend : Backend) (lane : Option Lane) (filter : Option JobState)
    (state : backend.State) (cursor : Option Int) (page : JobPage) : PageCall backend :=
  ⟨state, backend.entries state lane filter, (cursor.getD 0).toNat,
    page.items.map fun item => item.taskId, page.nextCursor⟩

/-- The page that a call returns. -/
def pageOf (backend : Backend) (lane : Option Lane) (filter : Option JobState) (limit : Int)
    (state : backend.State) (cursor : Option Int) : Option JobPage :=
  match backend.reply state (.listJobs lane filter cursor limit) with
  | .page page => some page
  | _ => none

/-- The calls of a listing from a cursor, with the steps of the store between
two pages, and whether it came to the end. -/
def follow (backend : Backend) (lane : Option Lane) (filter : Option JobState) (limit : Int) :
    backend.State → Option Int → List (List Label) → List (PageCall backend) × Bool
  | state, cursor, [] =>
    match pageOf backend lane filter limit state cursor with
    | none => ([], false)
    | some page => ([read backend lane filter state cursor page], page.nextCursor.isNone)
  | state, cursor, gap :: rest =>
    match pageOf backend lane filter limit state cursor with
    | none => ([], false)
    | some page =>
      match page.nextCursor with
      | none => ([read backend lane filter state cursor page], true)
      | some next =>
        let later := Run.run backend.step
          (backend.step state (.call (.listJobs lane filter cursor limit))) gap
        let further := follow backend lane filter limit later (some (next : Int)) rest
        (read backend lane filter state cursor page :: further.1, further.2)

variable {backend : Backend} {state : backend.State} {lane : Option Lane}
  {filter : Option JobState}

theorem reply_memory (state : State .memory) (command : Command) :
    reply .memory state command =
      ((MemoryMachine.store state).exec (MemoryMachine.clock state) command).1 := rfl

/-- A page returns the jobs between its cursor and the next one, each once. -/
theorem page_covers (sound : backend.Sound state) {cursor : Option Int} {limit : Int}
    {page : JobPage} (paged : pageOf backend lane filter limit state cursor = some page)
    {id : TaskId} (shows : backend.shows state lane filter id = true)
    (listed : id ∈ backend.entries state lane filter) :
    (read backend lane filter state cursor page).page.Covers id := by
  have replied : backend.reply state (.listJobs lane filter cursor limit) = .page page := by
    unfold pageOf at paged
    split at paged
    · rename_i answer same
      cases paged
      exact same
    · cases paged
  cases backend with
  | memory =>
    have clean : ((MemoryMachine.store state).sweep
        (MemoryMachine.clock state)).ledger.WellFormed :=
      (@MemoryQueueStore.edits_sweep True _ _ sound).wellFormed sound
    have answered : ((MemoryMachine.store state).sweep (MemoryMachine.clock state)).listJobs
        lane filter cursor limit = .page page := by
      rw [reply_memory] at replied
      exact replied
    obtain ⟨items, next⟩ := MemoryQueueStore.listJobs_page answered
    refine ⟨(cursor.getD 0).toNat + limit.toNat, Nat.le_add_right _ _, ?_, ?_⟩
    · simp only [read, next]
      split
      · exact .inl rfl
      · rename_i past
        exact .inr ⟨rfl, not_lt.mp past⟩
    · simp only [read, items]
      exact count_window (MemoryQueueStore.listed_nodup clean) listed _ _
  | redis =>
    have clean : (Script.ledger (Script.sweep (ScriptMachine.db state)
        (ScriptMachine.clock state))).WellFormed :=
      (@Script.edits_sweep (fun _ _ => True) _ _ sound.1).wellFormed sound.1
    have answered : Script.list (Script.sweep (ScriptMachine.db state)
        (ScriptMachine.clock state)) lane filter cursor limit = .page page := by
      rw [reply_redis, Script.exec] at replied
      simp only [Script.answered] at replied
      split at replied
      · rename_i reply refused
        split_ifs at refused
        · cases refused
          cases replied
        · cases refused
          cases replied
      · exact replied
    have kept : ((Script.sweep (ScriptMachine.db state) (ScriptMachine.clock state)).jobs.get?
        id).any (fun m => m.passes lane filter) = true := shows
    obtain ⟨m, present, passes⟩ := (Option.any_eq_true _ _).mp kept
    exact Script.list_covers clean answered present passes listed

/-- The pages of a listing that came to its end follow one another. -/
theorem follow_follows (limit : Int) (gaps : List (List Label)) (state : backend.State)
    (cursor : Option Int)
    (done : (follow backend lane filter limit state cursor gaps).2 = true) :
    Page.Follows (cursor.getD 0).toNat
      ((follow backend lane filter limit state cursor gaps).1.map PageCall.page) := by
  induction gaps generalizing state cursor with
  | nil =>
    simp only [follow] at done ⊢
    split at done
    · cases done
    · rename_i page _
      have last : (read backend lane filter state cursor page).page.next = none :=
        Option.isNone_iff_eq_none.mp done
      exact .last last
  | cons gap rest ih =>
    simp only [follow] at done ⊢
    split at done
    · cases done
    · rename_i page _
      split at done
      · rename_i next
        have last : (read backend lane filter state cursor page).page.next = none := next
        exact .last last
      · rename_i stop next
        have more : (read backend lane filter state cursor page).page.next = some stop := next
        have further := ih _ _ done
        exact .more more further

/-- Every page of a listing covers the jobs of its state. -/
theorem follow_covers (limit : Int) (gaps : List (List Label)) {state : backend.State}
    (sound : backend.Sound state) (cursor : Option Int) {id : TaskId} {call : PageCall backend}
    (member : call ∈ (follow backend lane filter limit state cursor gaps).1)
    (shows : backend.shows call.state lane filter id = true) (listed : id ∈ call.page.entries) :
    call.page.Covers id := by
  induction gaps generalizing state cursor with
  | nil =>
    simp only [follow] at member
    split at member
    · cases member
    · rename_i page paged
      cases List.mem_singleton.mp member
      exact page_covers sound paged shows listed
  | cons gap rest ih =>
    simp only [follow] at member
    split at member
    · cases member
    · rename_i page paged
      split at member
      · cases List.mem_singleton.mp member
        exact page_covers sound paged shows listed
      · rcases List.mem_cons.mp member with same | later
        · cases same
          exact page_covers sound paged shows listed
        · exact ih (sound_run (sound.step _) gap) _ later

/-- The job stays in the sequence that the cursor counts and does not cross the
cursor between two pages. -/
structure Holds (calls : List (PageCall backend)) (id : TaskId) : Prop where
  listed : ∀ call ∈ calls, id ∈ call.page.entries
  steady : Page.Steady id (calls.map PageCall.page)

/-- A listing that is read to its end returns a job exactly once if the job
passes the filter at every page and holds its place. -/
theorem listed_once (backend : Backend) (start : Time) (labels : List Label)
    (lane : Option Lane) (filter : Option JobState) (limit : Int) (gaps : List (List Label))
    (done : (follow backend lane filter limit (backend.after start labels) none gaps).2 = true)
    {id : TaskId}
    (shows : ∀ call ∈ (follow backend lane filter limit (backend.after start labels) none gaps).1,
      backend.shows call.state lane filter id = true)
    (holds : Holds (follow backend lane filter limit (backend.after start labels) none gaps).1
      id) :
    ((follow backend lane filter limit (backend.after start labels) none gaps).1.flatMap
      fun call => call.page.items).count id = 1 := by
  have sound := sound_after backend start labels
  have follows := follow_follows limit gaps (backend.after start labels) none done
  obtain ⟨first, rest, shape, begins, counted⟩ := follows.count
    (fun page member => by
      obtain ⟨call, listed, rfl⟩ := List.mem_map.mp member
      exact follow_covers limit gaps sound none listed (shows call listed)
        (holds.listed call listed))
    (fun page member => by
      obtain ⟨call, listed, rfl⟩ := List.mem_map.mp member
      exact holds.listed call listed)
    holds.steady
  rw [List.flatMap_map] at counted
  exact counted

/-- Two submissions of one user. -/
def twoJobs : List Label :=
  ["a", "b"].map fun key => .call (.admitJob
    { taskId := .submission 7 key, kind := "mail", lane := "deferred", userId := 7,
      payload := .text "x", idempotencyKey := .given key } defaultQueuePolicy)

/-- The first of the two is claimed after the first page. -/
def claimBetween : List (List Label) := [[.call (.claim .deferred "w")]]

/-- Without a filter the claim between the pages moves nothing. -/
theorem listed_once_claim :
    ((follow .memory none none 1 (Backend.memory.after 0 twoJobs) none claimBetween).1.flatMap
      fun call => call.page.items).count (.submission 7 "b") = 1 :=
  listed_once .memory 0 twoJobs none none 1 claimBetween (by decide +kernel) (by decide +kernel)
    ⟨by decide +kernel, by decide +kernel⟩

/-- With the filter `queued` the claim moves the second job across the cursor of
the local store: it is queued all the time and on no page.  The script, whose
cursor counts the index, returns it. -/
theorem listing_misses :
    ((follow .memory none (some .queued) 1 (Backend.memory.after 0 twoJobs) none
        claimBetween).2 = true ∧
      (∀ call ∈ (follow .memory none (some .queued) 1 (Backend.memory.after 0 twoJobs) none
          claimBetween).1,
        Backend.memory.shows call.state none (some .queued) (.submission 7 "b") = true) ∧
      ((follow .memory none (some .queued) 1 (Backend.memory.after 0 twoJobs) none
        claimBetween).1.flatMap fun call => call.page.items).count (.submission 7 "b") = 0) ∧
    ((follow .redis none (some .queued) 1 (Backend.redis.after 0 twoJobs) none
        claimBetween).1.flatMap fun call => call.page.items).count (.submission 7 "b") = 1 := by
  refine ⟨⟨?_, ?_, ?_⟩, ?_⟩ <;> decide +kernel

end Backend

end BobbyBotique.Queue
