import Sysmon.Ebpf.Requests

/-!
# What the tracer measures

The results on requests. A full `start_times` only loses samples. A request is
measured correctly unless it shares its packed key with another request that
is outstanding at the same time. The packed key keeps the low 32 bits of the
sector only, so that two requests of one large disk can share it although
their sectors differ; and two requests that share a key may not only lose a
sample, as the comment on `pack_key` says, but also record a latency that no
request had.
-/

namespace Sysmon.Ebpf

universe u

variable {Request : Type u} [DecidableEq Request]

open RequestEvent

namespace Workload

variable {load : Workload Request} {run : List (RequestEvent Request)}

def oneDisk (inFlight : Finset UInt64) : Workload UInt64 where
  ctx sector := ⟨8, sector⟩
  inFlight := inFlight

/-! ## A full table -/

/-- A full `start_times` only loses samples and recovers: at any load it holds exactly the
outstanding requests whose issue was stored; a completion counts the request's own latency once if
its issue was stored and changes no counter otherwise; and a request that is issued while there is
room is measured. -/
theorem full_table_only_loses_samples (load : Workload Request)
    (run : List (RequestEvent Request)) (legal : History.Along load.Legal run)
    (ordered : ClockOrdered (load.events run))
    (distinct : History.Throughout load.KeysDistinct run) :
    History.Throughout load.TableHolds run ∧
    (∀ before request now, before ++ [.complete request now] <+: run →
      (∀ time, load.StoredAt request time before →
        time ≤ now ∧
        (load.kernel (before ++ [.complete request now])).ioLatencyHist =
          ((load.kernel before).increment (latencyBucket (now - time))).ioLatencyHist) ∧
      ((∀ time, ¬load.StoredAt request time before) →
        (load.kernel (before ++ [.complete request now])).ioLatencyHist =
          (load.kernel before).ioLatencyHist)) ∧
    (∀ before request time later now, before ++ [.issue request time] <+: later →
      later ++ [.complete request now] <+: run →
      (load.kernel before).startTimes.size < startTimesMaxEntries →
      (load.kernel (later ++ [.complete request now])).ioLatencyHist =
        ((load.kernel later).increment (latencyBucket (now - time))).ioLatencyHist) := by
  have prefixOf : ∀ {before : List (RequestEvent Request)} {event},
      before ++ [event] <+: run → before <+: run := by
    intro before event isPrefix
    exact (List.prefix_append _ _).trans isPrefix
  refine ⟨?_, ?_, ?_⟩
  · intro before isPrefix
    exact tableHolds (legal.of_prefix isPrefix) (distinct.of_prefix isPrefix)
  · intro before request now isPrefix
    have legalHere := legal.of_prefix isPrefix
    have distinctHere := distinct.of_prefix (prefixOf isPrefix)
    constructor
    · intro time stored
      have orderedHere : ClockOrdered (load.events (before ++ [.complete request now])) :=
        List.Pairwise.sublist ((isPrefix.map _).map _).sublist ordered
      exact ⟨storedAt_le_clock orderedHere stored,
        hist_complete_of_stored legalHere distinctHere stored⟩
    · intro notStored
      rw [hist_complete_of_not_stored legalHere distinctHere notStored]
  · intro before request time later now issued isPrefix room
    exact hist_complete_of_stored (legal.of_prefix isPrefix)
      (distinct.of_prefix (prefixOf isPrefix)) ⟨before, issued, room⟩

/-! ### A run that fills the table -/

section Crowd

/-- The requests are numbered by the sectors of one disk. -/
def crowd : Workload ℕ where
  ctx request := ⟨8, UInt64.ofNat request⟩
  inFlight := ∅

/-- That many requests are issued at once. -/
def burst (count : ℕ) : List (RequestEvent ℕ) :=
  (List.range count).map fun request => .issue request 1000

theorem burst_succ (count : ℕ) : burst (count + 1) = burst count ++ [.issue count 1000] := by
  simp [burst, List.range_succ]

theorem key_crowd_inj {request other : ℕ} (small : request < 2 ^ 32) (otherSmall : other < 2 ^ 32)
    (same : crowd.key request = crowd.key other) : request = other := by
  have sectors := (packKey_eq_iff.mp same).2
  simp only [crowd, UInt64.toNat_ofNat'] at sectors
  omega

theorem keysDistinct_crowd {run : List (RequestEvent ℕ)}
    (small : ∀ event ∈ run, event.request < 2 ^ 32) :
    History.Throughout crowd.KeysDistinct run := by
  intro before isPrefix
  have known : ∀ request ∈ crowd.outstanding before, request < 2 ^ 32 := by
    intro request present
    rcases inFlight_or_issued_of_outstanding present with inFlight | issued
    · exact absurd inFlight (Finset.notMem_empty request)
    · rcases Option.ne_none_iff_exists'.mp issued with ⟨time, isIssue⟩
      rcases List.exists_of_findSome?_eq_some isIssue with ⟨event, isEvent, isIssue⟩
      rw [← request_of_issueOf isIssue]
      exact small event (isPrefix.subset isEvent)
  intro request present other otherPresent
  exact key_crowd_inj (known request present) (known other otherPresent)

theorem issueTime_burst {count request : ℕ} (later : count ≤ request) :
    issueTime request (burst count) = none := by
  rw [issueTime, List.findSome?_eq_none_iff]
  intro event isEvent
  rcases List.mem_map.mp isEvent with ⟨issued, inRange, rfl⟩
  have different : issued ≠ request := by
    rw [List.mem_range] at inRange
    omega
  simp [issueOf, different]

theorem outstanding_burst (count : ℕ) : crowd.outstanding (burst count) = Finset.range count := by
  induction count with
  | zero => rfl
  | succ count ih => rw [burst_succ, outstanding_concat, ih, Finset.range_add_one, settle]

theorem request_lt_of_mem_burst {count : ℕ} {event : RequestEvent ℕ}
    (isEvent : event ∈ burst count) : event.request < count := by
  rcases List.mem_map.mp isEvent with ⟨issued, inRange, rfl⟩
  exact List.mem_range.mp inRange

theorem legal_burst (count : ℕ) : History.Along crowd.Legal (burst count) := by
  induction count with
  | zero => exact History.along_nil _
  | succ count ih =>
      rw [burst_succ, History.along_concat]
      exact ⟨ih, Finset.notMem_empty count, issueTime_burst le_rfl⟩

theorem small_burst {count : ℕ} (few : count ≤ 2 ^ 32) :
    ∀ event ∈ burst count, event.request < 2 ^ 32 :=
  fun _ isEvent => (request_lt_of_mem_burst isEvent).trans_le few

theorem key_notMem_burst {count request : ℕ} (later : count ≤ request)
    (small : request < 2 ^ 32) :
    crowd.key request ∉ (crowd.kernel (burst count)).startTimes.keys := by
  have held := tableHolds (legal_burst count) (keysDistinct_crowd (small_burst (by omega)))
  rw [BoundedMap.mem_keys, Option.isSome_iff_exists]
  rintro ⟨time, found⟩
  rcases (held _ _).mp found with ⟨other, present, same, _⟩
  rw [outstanding_burst, Finset.mem_range] at present
  have isRequest := key_crowd_inj (by omega) small same
  omega

/-- A burst of as many requests as there are entries fills the table. -/
theorem size_burst {count : ℕ} (fits : count ≤ startTimesMaxEntries) :
    (crowd.kernel (burst count)).startTimes.size = count := by
  induction count with
  | zero => rfl
  | succ count ih =>
      have few : count < 10240 := fits
      have absent := key_notMem_burst (le_refl count) (by omega)
      have sizeBefore := ih few.le
      have room : (crowd.kernel (burst count)).startTimes.size < startTimesMaxEntries :=
        sizeBefore.trans_lt few
      rw [burst_succ, kernel_concat, toBlock, KernelState.handle_issue]
      change (BoundedMap.update _ (crowd.key count) 1000).size = count + 1
      rw [BoundedMap.size_update_of_notMem absent room, sizeBefore]

variable {count : ℕ}

/-- One request too many is issued, and then the first one completes. -/
def overflow (count : ℕ) : List (RequestEvent ℕ) :=
  burst count ++ [.issue count 2000] ++ [.complete 0 3000]

/-- Another request is issued, and both of these complete. -/
def recovery (count : ℕ) : List (RequestEvent ℕ) :=
  overflow count ++ [.issue (count + 1) 4000] ++ [.complete count 5000] ++
    [.complete (count + 1) 9000]

theorem small_recovery (few : count + 1 < 2 ^ 32) :
    ∀ event ∈ recovery count, event.request < 2 ^ 32 := by
  intro event isEvent
  simp only [recovery, overflow, List.mem_append, List.mem_singleton] at isEvent
  rcases isEvent with ((((inBurst | rfl) | rfl) | rfl) | rfl) | rfl
  · exact small_burst (by omega) event inBurst
  all_goals simp only [RequestEvent.request]; omega

theorem legal_recovery (positive : 0 < count) : History.Along crowd.Legal (recovery count) := by
  have notYet : ∀ request, count ≤ request → issueTime request (burst count) = none :=
    fun request => issueTime_burst
  simp only [recovery, overflow, History.along_concat, Legal, outstanding_concat,
    outstanding_burst, issueTime_concat, settle, issueOf]
  refine ⟨⟨⟨⟨⟨legal_burst count, ?_, notYet count le_rfl⟩, ?_⟩, ?_, ?_⟩, ?_⟩, ?_⟩
  all_goals simp [crowd, notYet, positive, positive.ne']

theorem clock_burst (count : ℕ) : ∀ event ∈ crowd.events (burst count), event.clock = 1000 := by
  simp [events, burst, toBlock, BlockEvent.clock]

theorem ordered_burst (count : ℕ) : ClockOrdered (crowd.events (burst count)) := by
  induction count with
  | zero => exact List.Pairwise.nil
  | succ count ih =>
      rw [burst_succ, events_concat, clockOrdered_concat]
      refine ⟨ih, ?_⟩
      intro earlier isEarlier
      rw [clock_burst count earlier isEarlier]
      exact UInt64.le_refl 1000

theorem ordered_recovery (count : ℕ) : ClockOrdered (crowd.events (recovery count)) := by
  have before : ∀ {later : UInt64}, 1000 ≤ later →
      ∀ event ∈ crowd.events (burst count), event.clock ≤ later :=
    fun isLater event isEvent => (clock_burst count event isEvent).symm ▸ isLater
  simp only [recovery, overflow, events_concat, clockOrdered_concat, List.forall_mem_append,
    List.forall_mem_singleton, toBlock, BlockEvent.clock]
  refine ⟨⟨⟨⟨⟨ordered_burst count, before ?_⟩, before ?_, ?_⟩, ⟨before ?_, ?_⟩, ?_⟩,
    ⟨⟨before ?_, ?_⟩, ?_⟩, ?_⟩, ⟨⟨⟨before ?_, ?_⟩, ?_⟩, ?_⟩, ?_⟩
  all_goals decide

theorem kernel_burst_issue (full : count = startTimesMaxEntries) :
    crowd.kernel (burst count ++ [.issue count 2000]) = crowd.kernel (burst count) := by
  have few : count < 2 ^ 32 := full.trans_lt (by decide)
  have rejects : ¬(crowd.kernel (burst count)).startTimes.Accepts (crowd.key count) := by
    rw [BoundedMap.Accepts, size_burst full.le, not_or]
    exact ⟨key_notMem_burst le_rfl few, full.not_lt⟩
  rw [kernel_concat, toBlock, KernelState.handle_issue]
  exact congrArg (fun startTimes => { crowd.kernel (burst count) with startTimes := startTimes })
    (BoundedMap.update_of_not_accepts rejects 2000)

/-- The first completion makes room. -/
theorem size_overflow (full : count = startTimesMaxEntries) :
    (crowd.kernel (overflow count)).startTimes.size < startTimesMaxEntries := by
  have few : count ≤ 2 ^ 32 := full.trans_le (by decide)
  have positive : 0 < count := (by decide : 0 < startTimesMaxEntries).trans_eq full.symm
  have stored : crowd.StoredAt 0 1000 (burst count) := by
    rcases Nat.exists_eq_add_of_lt positive with ⟨rest, rfl⟩
    refine ⟨[], ?_, by decide⟩
    simp [burst, List.range_succ_eq_map]
  have isOutstanding : 0 ∈ crowd.outstanding (burst count) := by
    rw [outstanding_burst, Finset.mem_range]
    exact positive
  have found : (crowd.kernel (burst count)).startTimes.lookup (crowd.key 0) = some 1000 :=
    (tableHolds (legal_burst count) (keysDistinct_crowd (small_burst few)) _ _).mpr
      ⟨0, isOutstanding, rfl, stored⟩
  have present : crowd.key 0 ∈ (crowd.kernel (burst count)).startTimes.keys := by
    rw [BoundedMap.mem_keys, found]
    rfl
  have smaller := BoundedMap.size_delete_lt present
  rw [size_burst full.le, full] at smaller
  rw [overflow, kernel_concat, kernel_burst_issue full, toBlock,
    KernelState.handle_complete_of_some 3000 found, full]
  exact smaller

theorem not_stored_recovery (full : count = startTimesMaxEntries) (time : UInt64) :
    ¬crowd.StoredAt count time (overflow count ++ [.issue (count + 1) 4000]) := by
  have neverIssued : ¬crowd.StoredAt count time (burst count) := by
    rintro ⟨before, isPrefix, _⟩
    have isIssue := (issueTime_eq_some_iff (legal_burst count)).mpr ⟨before, isPrefix⟩
    rw [issueTime_burst le_rfl] at isIssue
    cases isIssue
  have noRoom : ¬(crowd.kernel (burst count)).startTimes.size < startTimesMaxEntries := by
    rw [size_burst full.le]
    exact full.not_lt
  simp only [overflow, storedAt_concat, neverIssued, noRoom]
  simp

/-- Requests fill the table, and the next one is lost. After the first one has completed, another
request is measured. -/
theorem full_table_only_loses_samples_of_crowd :
    ∃ count, (crowd.kernel (burst count)).startTimes.size = startTimesMaxEntries ∧
      (crowd.kernel (overflow count ++ [.issue (count + 1) 4000] ++
          [.complete count 5000])).ioLatencyHist =
        (crowd.kernel (overflow count ++ [.issue (count + 1) 4000])).ioLatencyHist ∧
      (crowd.kernel (recovery count)).ioLatencyHist =
        ((crowd.kernel (overflow count ++ [.issue (count + 1) 4000] ++
          [.complete count 5000])).increment (latencyBucket (9000 - 4000))).ioLatencyHist := by
  rcases (⟨_, rfl⟩ : ∃ count, count = startTimesMaxEntries) with ⟨count, full⟩
  have positive : 0 < count := (by decide : 0 < startTimesMaxEntries).trans_eq full.symm
  have few : count + 1 < 2 ^ 32 := (congrArg (· + 1) full).trans_lt (by decide)
  rcases full_table_only_loses_samples crowd (recovery count) (legal_recovery positive)
    (ordered_recovery count) (keysDistinct_crowd (small_recovery few)) with
    ⟨_, completions, recovers⟩
  refine ⟨count, (size_burst full.le).trans full, ?_, ?_⟩
  · exact (completions _ count 5000 (List.prefix_append _ _)).2 (not_stored_recovery full)
  · apply recovers (overflow count) (count + 1) 4000 _ 9000 (List.prefix_append _ _)
      (List.prefix_refl _) (size_overflow full)

end Crowd

/-! ## Every request is measured -/

/-- The requests that are issued and complete in the run, with a latency that belongs to the
bucket. -/
def measured (bucket : Fin histBuckets) (run : List (RequestEvent Request)) : Finset Request :=
  (run.map RequestEvent.request).toFinset.filter fun request =>
    ∃ time ∈ issueTime request run, ∃ now ∈ completionTime request run,
      InBucket bucket ((now.toNat - time.toNat) / 1000)

def MeasuresEveryRequest (load : Workload Request) (run : List (RequestEvent Request)) : Prop :=
  ∀ bucket, ((load.kernel run).ioLatencyHist bucket).toNat = (measured bucket run).card

def SectorsDistinct (load : Workload Request) (run : List (RequestEvent Request)) : Prop :=
  ∀ request ∈ load.outstanding run, ∀ other ∈ load.outstanding run,
    load.ctx request = load.ctx other → request = other

def LowSectorsDistinct (load : Workload Request) (run : List (RequestEvent Request)) : Prop :=
  ∀ request ∈ load.outstanding run, ∀ other ∈ load.outstanding run,
    (load.ctx request).dev = (load.ctx other).dev →
    (load.ctx request).sector.toNat % 2 ^ 32 = (load.ctx other).sector.toNat % 2 ^ 32 →
    request = other

/-- There is an entry of `start_times` for every outstanding request. -/
def FewOutstanding (load : Workload Request) (run : List (RequestEvent Request)) : Prop :=
  (load.outstanding run).card ≤ startTimesMaxEntries

instance (load : Workload Request) : DecidablePred load.SectorsDistinct := fun run =>
  inferInstanceAs (Decidable (∀ request ∈ load.outstanding run, _))

instance (load : Workload Request) : DecidablePred load.LowSectorsDistinct := fun run =>
  inferInstanceAs (Decidable (∀ request ∈ load.outstanding run, _))

instance (load : Workload Request) : DecidablePred load.FewOutstanding := fun _ =>
  inferInstanceAs (Decidable (_ ≤ _))

instance (load : Workload Request) : DecidablePred load.MeasuresEveryRequest := fun _ =>
  inferInstanceAs (Decidable (∀ _, _))

theorem keysDistinct_iff : load.KeysDistinct run ↔ load.LowSectorsDistinct run := by
  simp only [KeysDistinct, LowSectorsDistinct, key, packKey_eq_iff, and_imp]

theorem mem_measured {bucket : Fin histBuckets} {request : Request} :
    request ∈ measured bucket run ↔
      ∃ time ∈ issueTime request run, ∃ now ∈ completionTime request run,
        InBucket bucket ((now.toNat - time.toNat) / 1000) := by
  simp only [measured, Finset.mem_filter, List.mem_toFinset, and_iff_right_iff_imp]
  rintro ⟨time, issued, _⟩
  rcases List.exists_of_findSome?_eq_some issued with ⟨event, present, isIssue⟩
  exact List.mem_map.mpr ⟨event, present, request_of_issueOf isIssue⟩

theorem size_le_card_outstanding (held : load.TableHolds run) :
    (load.kernel run).startTimes.size ≤ (load.outstanding run).card := by
  have subset : (load.kernel run).startTimes.keys ⊆ (load.outstanding run).image load.key := by
    intro key present
    rcases Option.isSome_iff_exists.mp (BoundedMap.mem_keys.mp present) with ⟨time, found⟩
    rcases (held _ _).mp found with ⟨request, outstanding, same, _⟩
    exact Finset.mem_image.mpr ⟨request, outstanding, same⟩
  exact (Finset.card_le_card subset).trans Finset.card_image_le

theorem storedAt_iff_issueTime (legal : History.Along load.Legal run)
    (distinct : History.Throughout load.KeysDistinct run)
    (few : History.Throughout load.FewOutstanding run) {request : Request} {time : UInt64} :
    load.StoredAt request time run ↔ issueTime request run = some time := by
  rw [issueTime_eq_some_iff legal]
  refine exists_congr fun before => and_iff_left_of_imp fun isPrefix => ?_
  have beforePrefix := (List.prefix_append before [issue request time]).trans isPrefix
  have legalBefore := legal.of_prefix beforePrefix
  have legalNow := (History.along_concat.mp (legal.of_prefix isPrefix)).2
  have fewNow := (few.of_prefix isPrefix).self
  rw [FewOutstanding, outstanding_concat, settle,
    Finset.card_insert_of_notMem (not_outstanding_of_legal_issue legalNow)] at fewNow
  have bound := size_le_card_outstanding
    (tableHolds legalBefore (distinct.of_prefix beforePrefix))
  omega

theorem measured_complete {bucket : Fin histBuckets} {completed : Request} {now : UInt64}
    (legal : History.Along load.Legal run) (legalNow : load.Legal run (.complete completed now)) :
    measured bucket (run ++ [.complete completed now]) =
      if ∃ time ∈ issueTime completed run, InBucket bucket ((now.toNat - time.toNat) / 1000)
      then insert completed (measured bucket run) else measured bucket run := by
  have pending := completionTime_of_outstanding legal legalNow
  ext request
  by_cases same : completed = request
  · subst completed
    have notYet : request ∉ measured bucket run := by
      simp [mem_measured, pending]
    split
    · rename_i belongs
      simpa [mem_measured, issueOf, completionOf, pending] using belongs
    · rename_i belongsNot
      simp only [notYet, iff_false]
      simpa [mem_measured, issueOf, completionOf, pending] using belongsNot
  · have unaffected : request ∈ measured bucket (run ++ [.complete completed now]) ↔
        request ∈ measured bucket run := by
      simp [mem_measured, issueOf, completionOf, same]
    rw [unaffected]
    split <;> simp [Ne.symm same]

theorem measured_issue {bucket : Fin histBuckets} {issued : Request} {now : UInt64}
    (legal : History.Along load.Legal (run ++ [.issue issued now])) :
    measured bucket (run ++ [.issue issued now]) = measured bucket run := by
  have notCompleted : completionTime issued (run ++ [.issue issued now]) = none := by
    apply completionTime_of_outstanding legal
    simp [settle]
  ext request
  by_cases same : issued = request
  · subst issued
    have before : completionTime request run = none := by
      simpa [completionOf] using notCompleted
    simp [mem_measured, before, completionOf]
  · simp [mem_measured, issueOf, completionOf, same]

/-- With different packed keys and an entry for every outstanding request, every counter is the
number of the requests of its bucket, modulo `2 ^ 64`. -/
theorem ioLatencyHist_kernel (legal : History.Along load.Legal run)
    (ordered : ClockOrdered (load.events run))
    (distinct : History.Throughout load.KeysDistinct run)
    (few : History.Throughout load.FewOutstanding run) (bucket : Fin histBuckets) :
    (load.kernel run).ioLatencyHist bucket = UInt64.ofNat (measured bucket run).card := by
  induction run using List.reverseRecOn with
  | nil => simp [kernel, events, measured, KernelState.loaded]
  | append_singleton run event ih =>
      rcases History.along_concat.mp legal with ⟨legalBefore, legalNow⟩
      have distinctBefore := (History.throughout_concat.mp distinct).1
      have fewBefore := (History.throughout_concat.mp few).1
      have orderedBefore : ClockOrdered (load.events run) := by
        rw [events_concat] at ordered
        exact (clockOrdered_concat.mp ordered).1
      have counted := ih legalBefore orderedBefore distinctBefore fewBefore
      cases event with
      | issue issued now =>
          rw [measured_issue legal, ← counted, kernel_concat]
          rfl
      | complete completed now =>
          have notYet : completed ∉ measured bucket run := by
            simp [mem_measured, completionTime_of_outstanding legalBefore legalNow]
          rw [measured_complete legalBefore legalNow]
          cases issuedAt : issueTime completed run with
          | none =>
              have notStored : ∀ time, ¬load.StoredAt completed time run := by
                intro time stored
                rw [storedAt_iff_issueTime legalBefore distinctBefore fewBefore] at stored
                simp [issuedAt] at stored
              rw [hist_complete_of_not_stored legal distinctBefore notStored, counted]
              simp
          | some time =>
              have stored : load.StoredAt completed time run :=
                (storedAt_iff_issueTime legalBefore distinctBefore fewBefore).mpr issuedAt
              have inPast : time ≤ now := storedAt_le_clock ordered stored
              rw [hist_complete_of_stored legal distinctBefore stored,
                KernelState.increment_ioLatencyHist, counted]
              simp only [Option.mem_def, Option.some.injEq, exists_eq_left',
                latencyBucket_sub_eq_iff inPast]
              split
              · rw [Finset.card_insert_of_notMem notYet, UInt64.ofNat_add]
                rfl
              · simp

/-- The tracer measures every request, if at all times the outstanding requests differ in their
device or the low 32 bits of their sector, and no counter overflows. -/
theorem measuresEveryRequest_of_lowSectorsDistinct (load : Workload Request)
    (run : List (RequestEvent Request)) (legal : History.Along load.Legal run)
    (ordered : ClockOrdered (load.events run))
    (few : History.Throughout load.FewOutstanding run)
    (distinct : History.Throughout load.LowSectorsDistinct run)
    (noOverflow : ∀ bucket, (measured bucket run).card < 2 ^ 64) :
    load.MeasuresEveryRequest run := by
  intro bucket
  have keysDistinct : History.Throughout load.KeysDistinct run := by
    intro before isPrefix
    exact keysDistinct_iff.mpr (distinct before isPrefix)
  rw [ioLatencyHist_kernel legal ordered keysDistinct few bucket,
    UInt64.toNat_ofNat_of_lt' (noOverflow bucket)]

theorem measuresEveryRequest_of_two_sectors :
    MeasuresEveryRequest (oneDisk ∅)
      [.issue 0 1000, .issue 8 2000, .complete 0 9000, .complete 8 10000] :=
  measuresEveryRequest_of_lowSectorsDistinct _ _ (by decide +kernel) (by decide +kernel)
    (by decide +kernel) (by decide +kernel) (by decide +kernel)

/-- Different sectors are not enough: sectors 0 and `2 ^ 32` of one disk share a packed key. -/
theorem sectorsDistinct_not_sufficient :
    ¬∀ (load : Workload UInt64) (run : List (RequestEvent UInt64)),
      History.Along load.Legal run → ClockOrdered (load.events run) →
      History.Throughout load.FewOutstanding run → History.Throughout load.SectorsDistinct run →
      (∀ bucket, (measured bucket run).card < 2 ^ 64) → load.MeasuresEveryRequest run := by
  intro measures
  have wrong := measures (oneDisk ∅)
    [.issue 0 1000, .issue 0x100000000 2000, .complete 0 9000, .complete 0x100000000 10000]
    (by decide +kernel) (by decide +kernel) (by decide +kernel) (by decide +kernel)
    (by decide +kernel)
  revert wrong
  decide +kernel

/-! ## Requests that share a key -/

def lastOn (load : Workload Request) (key : UInt64) (run : List (RequestEvent Request)) :
    Option (RequestEvent Request) :=
  History.last (fun event => load.key event.request = key) run

/-- Whenever the completion of a request is counted, it is counted in the bucket of the request's
own latency. The tracer does not know the issue times before it attached, the property does. -/
def RecordsOwnLatency (load : Workload Request) (issuedBefore : Request → UInt64)
    (run : List (RequestEvent Request)) : Prop :=
  ∀ before request now bucket, before ++ [.complete request now] <+: run →
    (load.kernel (before ++ [.complete request now])).ioLatencyHist =
      ((load.kernel before).increment bucket).ioLatencyHist →
    bucket = latencyBucket (now - (issueTime request before).getD (issuedBefore request))

/-- A completing request finds no start time that another request has stored. -/
def FindsOwnIssue (load : Workload Request) (before : List (RequestEvent Request)) :
    RequestEvent Request → Prop
  | .issue _ _ => True
  | .complete request _ => load.key request ∈ (load.kernel before).startTimes.keys →
    ∀ event ∈ load.lastOn (load.key request) before, event.request = request

instance (load : Workload Request) (before : List (RequestEvent Request)) :
    DecidablePred (load.FindsOwnIssue before)
  | .issue _ _ => inferInstanceAs (Decidable True)
  | .complete _ _ => inferInstanceAs (Decidable (_ ∈ _ → ∀ _ ∈ _, _))

omit [DecidableEq Request] in
theorem lastOn_of_lookup {key start : UInt64}
    (found : (load.kernel run).startTimes.lookup key = some start) :
    ∃ request, load.lastOn key run = some (.issue request start) := by
  rcases pendingSince_eq_some_iff.mp (pendingSince_of_lookup found) with ⟨ctx, isLast⟩
  have view : ∀ event : RequestEvent Request,
      (event.toBlock load.ctx).key = load.key event.request := by
    intro event
    cases event <;> rfl
  rw [Sysmon.Ebpf.lastOn, events, History.last_map] at isLast
  simp only [view] at isLast
  rcases Option.map_eq_some_iff.mp isLast with ⟨event, present, seen⟩
  cases event with
  | issue request time =>
      simp only [toBlock, BlockEvent.issue.injEq] at seen
      exact ⟨request, by rw [lastOn, present, seen.2]⟩
  | complete request time => simp [toBlock] at seen

theorem increment_ioLatencyHist_inj (kernel : KernelState) {bucket other : Fin histBuckets}
    (same : (kernel.increment bucket).ioLatencyHist = (kernel.increment other).ioLatencyHist) :
    bucket = other := by
  have value := congrFun same bucket
  simp only [KernelState.increment_ioLatencyHist, if_true] at value
  by_contra different
  simp [Ne.symm different] at value

/-- A latency that is counted is the request's own, as long as no completing request finds a start
time of another. -/
theorem recordsOwnLatency_of_findsOwnIssue (load : Workload Request)
    (issuedBefore : Request → UInt64) (run : List (RequestEvent Request))
    (legal : History.Along load.Legal run) (findsOwn : History.Along load.FindsOwnIssue run) :
    load.RecordsOwnLatency issuedBefore run := by
  intro before request now bucket isPrefix counted
  have beforePrefix := (List.prefix_append before _).trans isPrefix
  have findsOwnNow := (History.along_concat.mp (findsOwn.of_prefix isPrefix)).2
  rw [kernel_concat, toBlock] at counted
  cases found : (load.kernel before).startTimes.lookup (load.key request) with
  | none =>
      rw [KernelState.handle_complete_of_none now found] at counted
      have value := congrFun counted bucket
      simp [KernelState.increment_ioLatencyHist] at value
  | some start =>
      rcases lastOn_of_lookup found with ⟨other, isLast⟩
      have own : other = request := findsOwnNow (by simp [found]) _ isLast
      subst own
      have issued : issueTime other before = some start := by
        rcases List.append_of_mem (History.last_mem isLast).1 with ⟨earlier, later, rfl⟩
        rw [issueTime_eq_some_iff (legal.of_prefix beforePrefix)]
        exact ⟨earlier, later, by simp⟩
      rw [KernelState.handle_complete_of_some now found] at counted
      rw [issued, Option.getD_some]
      exact (increment_ioLatencyHist_inj (load.kernel before) counted).symm

/-- A request on sector 0 is counted with the start time of a request on sector `2 ^ 32`. -/
theorem foreign_latency_recorded :
    ¬∀ (load : Workload UInt64) (issuedBefore : UInt64 → UInt64) (run : List (RequestEvent UInt64)),
      History.Along load.Legal run → ClockOrdered (load.events run) →
      load.RecordsOwnLatency issuedBefore run := by
  intro recordsOwn
  have own := recordsOwn (oneDisk ∅) (fun _ => 0)
    [.issue 0 1000, .issue 0x100000000 5000, .complete 0 9000] (by decide +kernel)
    (by decide +kernel) [.issue 0 1000, .issue 0x100000000 5000] 0 9000 3 (by decide)
    (funext (by decide +kernel))
  revert own
  decide +kernel

theorem recordsOwnLatency_of_overwritten_sample :
    (oneDisk ∅).RecordsOwnLatency (fun _ => 0)
      [.issue 0 1000, .issue 0x100000000 5000, .complete 0x100000000 7000, .complete 0 9000] :=
  recordsOwnLatency_of_findsOwnIssue _ _ _ (by decide +kernel) (by decide +kernel)

end Workload

end Sysmon.Ebpf
