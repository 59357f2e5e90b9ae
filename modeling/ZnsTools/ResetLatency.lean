import ZnsTools.Shared.Emitted
import ZnsTools.Trace
import Mathlib.Data.List.Induction
import Mathlib.Data.List.Nodup

set_option autoImplicit false

namespace ZnsTools.Trace

open BpfMap Emitted KeyedObject

structure Pending where
  request : Request
  nsecs : UInt64
  deriving DecidableEq, Repr

def Event.request : Event → Request
  | .setup request _ => request
  | .complete request _ => request

def takeOff (args : Args) (inFlight : List Pending) (event : Event) : List Pending :=
  if event.request.diskName = args.diskName then
    match event with
    | .setup request nsecs => inFlight ++ [⟨request, nsecs⟩]
    | .complete request _ =>
      match inFlight.find? (·.request == request) with
      | none => inFlight
      | some pending => inFlight.erase pending
  else inFlight

def inFlight (args : Args) (events : List Event) : List Pending :=
  events.foldl (takeOff args) []

-- Tags are distinct in flight, only what is in flight completes, and the clock is monotone.
def Admissible (args : Args) (inFlight : List Pending) (event : Event) : Prop :=
  event.request.diskName = args.diskName →
    match event with
    | .setup request _ => ∀ pending ∈ inFlight, pending.request.tag ≠ request.tag
    | .complete request nsecs =>
      ∃ pending ∈ inFlight.find? (·.request == request), pending.nsecs ≤ nsecs

def InterleavingFrom (args : Args) : List Pending → List Event → Prop
  | _, [] => True
  | inFlight, event :: rest =>
    Admissible args inFlight event ∧ InterleavingFrom args (takeOff args inFlight event) rest

/-- Submissions and completions of the traced device in any order that it can have them in. -/
def Interleaving (args : Args) (events : List Event) : Prop :=
  InterleavingFrom args [] events

structure FinishedReset where
  zone : UInt64
  submitted : UInt64
  completed : UInt64

def FinishedReset.latency (reset : FinishedReset) : Nat :=
  reset.completed.toNat - reset.submitted.toNat

def finish (args : Args) (past : List Event) : Event → Option FinishedReset
  | .setup _ _ => none
  | .complete request nsecs =>
    match request.resets args, (inFlight args past).find? (·.request == request) with
    | some zone, some pending => some ⟨zone, pending.nsecs, nsecs⟩
    | _, _ => none

def finishedResets (args : Args) (events : List Event) : List FinishedReset :=
  emitted (finish args) [] events

def Event.submits (args : Args) (zone : UInt64) : Event → Bool
  | .setup request _ => request.resets args == some zone
  | .complete _ _ => false

structure Recorded (args : Args) (events : List Event) : Prop where
  counted : ∀ zone, ((trace args events).zResetLatMap.filter (·.1.1 == zone)).length =
    ((finishedResets args events).filter (·.zone == zone)).length
  kept : ∀ before after, events = before ++ after →
    (trace args before).zResetLatMap <+: (trace args events).zResetLatMap
  values : ∀ zone, (((trace args events).zResetLatMap.filter (·.1.1 == zone)).map
    (·.2.toNat)).Perm (((finishedResets args events).filter (·.zone == zone)).map (·.latency))

/-- Between two completions in a zone another reset of the zone is submitted. -/
def Separated (args : Args) (events : List Event) : Prop :=
  ∀ before first t between second u after zone,
    events = before ++ .complete first t :: (between ++ .complete second u :: after) →
    first.resets args = some zone → second.resets args = some zone →
    between.countP (·.submits args zone) % 2 ^ 64 ≠ 0

section Interleaving

variable {args : Args}

theorem inFlight_snoc (args : Args) (past : List Event) (event : Event) :
    inFlight args (past ++ [event]) = takeOff args (inFlight args past) event := by
  simp [inFlight]

theorem interleavingFrom_append {start : List Pending} {first second : List Event} :
    InterleavingFrom args start (first ++ second) ↔ InterleavingFrom args start first ∧
      InterleavingFrom args (first.foldl (takeOff args) start) second := by
  induction first generalizing start with
  | nil => simp [InterleavingFrom]
  | cons event rest ih =>
    rw [List.cons_append, InterleavingFrom, InterleavingFrom, ih, List.foldl_cons, and_assoc]

theorem interleaving_snoc {past : List Event} {event : Event} :
    Interleaving args (past ++ [event]) ↔
      Interleaving args past ∧ Admissible args (inFlight args past) event := by
  rw [Interleaving, interleavingFrom_append]
  simp [Interleaving, InterleavingFrom, inFlight]

end Interleaving

def resetCtr (args : Args) (past : List Event) (zone : UInt64) : UInt64 :=
  UInt64.ofNat (past.countP (·.submits args zone))

def record (args : Args) (past : List Event) (event : Event) :
    Option ((UInt64 × UInt64) × UInt64) :=
  (finish args past event).map fun reset =>
    ((reset.zone, resetCtr args past reset.zone), reset.completed - reset.submitted)

structure Tracked (args : Args) (past : List Event) : Prop where
  tags : (inFlight args past).Pairwise fun p q => p.request.tag ≠ q.request.tag
  zones : ∀ pending ∈ inFlight args past, ∀ zone, pending.request.resets args = some zone →
    value (trace args past).resetZTrackMap pending.request.tag = zone
  times : ∀ pending ∈ inFlight args past, ∀ zone, pending.request.resets args = some zone →
    value (trace args past).resetLatTrackMap pending.request.tag = pending.nsecs
  ctr : ∀ zone, value (trace args past).zResetCtrMap zone = resetCtr args past zone
  lat : (trace args past).zResetLatMap = addAll [] (emitted (record args) [] past)

section Step

variable {args : Args} {past : List Event} {request : Request} {nsecs : UInt64} {bits : Nat}

theorem resetCtr_snoc (event : Event) (zone : UInt64) :
    resetCtr args (past ++ [event]) zone =
      resetCtr args past zone + if event.submits args zone then 1 else 0 := by
  rw [resetCtr, List.countP_append, List.countP_singleton, UInt64.ofNat_add, resetCtr]
  split <;> rfl

theorem inFlight_setup (past : List Event) (nsecs : UInt64)
    (own : request.diskName = args.diskName) :
    inFlight args (past ++ [.setup request nsecs]) =
      inFlight args past ++ [⟨request, nsecs⟩] := by
  rw [inFlight_snoc, takeOff]
  exact if_pos own

theorem inFlight_foreign {event : Event} (foreign : event.request.diskName ≠ args.diskName) :
    inFlight args (past ++ [event]) = inFlight args past := by
  rw [inFlight_snoc]
  exact if_neg foreign

theorem emitted_record_setup :
    emitted (record args) [] (past ++ [.setup request nsecs]) = emitted (record args) [] past := by
  rw [emitted_snoc]
  exact List.append_nil _

theorem setup_tags (tracked : Tracked args past)
    (admissible : Admissible args (inFlight args past) (.setup request nsecs)) :
    (inFlight args (past ++ [.setup request nsecs])).Pairwise
      fun p q => p.request.tag ≠ q.request.tag := by
  by_cases own : request.diskName = args.diskName
  · rw [inFlight_setup past nsecs own, List.pairwise_append]
    refine ⟨tracked.tags, List.pairwise_singleton _ _, ?_⟩
    intro pending flying other last
    rw [List.mem_singleton.mp last]
    exact admissible own pending flying
  · have foreign : (Event.setup request nsecs).request.diskName ≠ args.diskName := own
    rw [inFlight_foreign foreign]
    exact tracked.tags

theorem setup_reset_tracked (power : args.zoneSize.toNat = 2 ^ bits) (tracked : Tracked args past)
    (admissible : Admissible args (inFlight args past) (.setup request nsecs)) {own : UInt64}
    (reset : request.resets args = some own) : Tracked args (past ++ [.setup request nsecs]) := by
  have moved : trace args (past ++ [.setup request nsecs]) =
      nvmeSetupCmd args request nsecs (trace args past) := trace_snoc args past _
  have same : SameResets (trace args (past ++ [.setup request nsecs])) _ :=
    moved ▸ setup_of_reset power reset
  have flight := inFlight_setup past nsecs (resets_cases reset).1
  have tags := setup_tags tracked admissible
  rw [flight] at tags
  have apart := (List.pairwise_append.mp tags).2.2
  constructor
  · rwa [flight]
  · intro pending flying zone its
    rw [flight, List.mem_append, List.mem_singleton] at flying
    rw [same.zones, value_add]
    rcases flying with before | rfl
    · rw [if_neg (apart pending before _ (List.mem_singleton_self _)).symm]
      exact tracked.zones pending before zone its
    · rw [if_pos rfl]
      exact Option.some.inj (reset.symm.trans its)
  · intro pending flying zone its
    rw [flight, List.mem_append, List.mem_singleton] at flying
    rw [same.times, value_add]
    rcases flying with before | rfl
    · rw [if_neg (apart pending before _ (List.mem_singleton_self _)).symm]
      exact tracked.times pending before zone its
    · rw [if_pos rfl]
  · intro zone
    rw [same.ctr, value_increase, resetCtr_snoc, Event.submits, reset, tracked.ctr, tracked.ctr]
    by_cases here : own = zone
    · simp [here]
    · simp [here]
  · rw [same.lat, emitted_record_setup, tracked.lat]

theorem setup_other_tracked (tracked : Tracked args past)
    (admissible : Admissible args (inFlight args past) (.setup request nsecs))
    (reset : request.resets args = none) : Tracked args (past ++ [.setup request nsecs]) := by
  have moved : trace args (past ++ [.setup request nsecs]) =
      nvmeSetupCmd args request nsecs (trace args past) := trace_snoc args past _
  have same : SameResets (trace args (past ++ [.setup request nsecs])) _ :=
    moved ▸ setup_of_other reset
  have flying_before : ∀ pending ∈ inFlight args (past ++ [.setup request nsecs]),
      ∀ zone, pending.request.resets args = some zone → pending ∈ inFlight args past := by
    intro pending flying zone its
    by_cases own : request.diskName = args.diskName
    · rw [inFlight_setup past nsecs own, List.mem_append, List.mem_singleton] at flying
      rcases flying with before | rfl
      · exact before
      · rw [reset] at its
        cases its
    · have foreign : (Event.setup request nsecs).request.diskName ≠ args.diskName := own
      rwa [inFlight_foreign foreign] at flying
  constructor
  · exact setup_tags tracked admissible
  · intro pending flying zone its
    rw [same.zones]
    exact tracked.zones pending (flying_before pending flying zone its) zone its
  · intro pending flying zone its
    rw [same.times]
    exact tracked.times pending (flying_before pending flying zone its) zone its
  · intro zone
    rw [same.ctr, resetCtr_snoc, Event.submits, reset, tracked.ctr]
    simp
  · rw [same.lat, emitted_record_setup, tracked.lat]

theorem setup_tracked (power : args.zoneSize.toNat = 2 ^ bits) (tracked : Tracked args past)
    (admissible : Admissible args (inFlight args past) (.setup request nsecs)) :
    Tracked args (past ++ [.setup request nsecs]) := by
  cases reset : request.resets args with
  | some own => exact setup_reset_tracked power tracked admissible reset
  | none => exact setup_other_tracked tracked admissible reset

theorem inFlight_complete (args : Args) (past : List Event) (request : Request) (nsecs : UInt64) :
    (inFlight args (past ++ [.complete request nsecs])).Sublist (inFlight args past) := by
  rw [inFlight_snoc, takeOff]
  split
  · split
    · exact .refl _
    · exact List.erase_sublist
  · exact .refl _

theorem complete_lat (tracked : Tracked args past)
    (admissible : Admissible args (inFlight args past) (.complete request nsecs)) :
    (nvmeCompleteRq args request nsecs (trace args past)).zResetLatMap =
      addAll [] (emitted (record args) [] (past ++ [.complete request nsecs])) := by
  rw [emitted_snoc, List.nil_append]
  cases reset : request.resets args with
  | some zone =>
    have ⟨pending, found, _⟩ := admissible (resets_cases reset).1
    have its : pending.request = request := by simpa using List.find?_some found
    have flying := List.mem_of_find?_eq_some found
    have tagged : value (trace args past).resetZTrackMap request.tag = zone := by
      rw [← its]
      exact tracked.zones pending flying zone (its ▸ reset)
    have timed : value (trace args past).resetLatTrackMap request.tag = pending.nsecs := by
      rw [← its]
      exact tracked.times pending flying zone (its ▸ reset)
    have given : record args past (.complete request nsecs) =
        some ((zone, resetCtr args past zone), nsecs - pending.nsecs) := by
      rw [record, finish, reset, found]
      rfl
    rw [complete_of_reset reset tagged, timed, tracked.ctr, tracked.lat, given, Option.toList_some,
      addAll_snoc]
  | none =>
    have nothing : record args past (.complete request nsecs) = none := by
      rw [record, finish, reset]
      rfl
    rw [complete_of_other reset, nothing, Option.toList_none, List.append_nil, tracked.lat]

theorem complete_tracked (tracked : Tracked args past)
    (admissible : Admissible args (inFlight args past) (.complete request nsecs)) :
    Tracked args (past ++ [.complete request nsecs]) := by
  have flight := inFlight_complete args past request nsecs
  have moved : trace args (past ++ [.complete request nsecs]) =
      nvmeCompleteRq args request nsecs (trace args past) := trace_snoc args past _
  have ⟨ctr, zones, times⟩ := complete_keeps args request nsecs (trace args past)
  constructor
  · exact tracked.tags.sublist flight
  · intro other later
    rw [moved, zones]
    exact tracked.zones other (flight.subset later)
  · intro other later
    rw [moved, times]
    exact tracked.times other (flight.subset later)
  · intro zone
    rw [moved, ctr, resetCtr_snoc, tracked.ctr]
    simp [Event.submits]
  · rw [moved]
    exact complete_lat tracked admissible

theorem interleaving_tracked (power : args.zoneSize.toNat = 2 ^ bits) {events : List Event}
    (interleaving : Interleaving args events) : Tracked args events := by
  induction events using List.reverseRecOn with
  | nil =>
    constructor
    · exact .nil
    · intro pending flying
      cases flying
    · intro pending flying
      cases flying
    · intro zone
      rfl
    · rfl
  | append_singleton past event ih =>
    have ⟨before, admissible⟩ := interleaving_snoc.mp interleaving
    cases event with
    | setup request nsecs => exact setup_tracked power (ih before) admissible
    | complete request nsecs => exact complete_tracked (ih before) admissible

end Step

section Records

variable {args : Args} {events : List Event} {bits : Nat}

theorem finish_complete {past rest : List Event} {request : Request} {nsecs : UInt64}
    (interleaving : Interleaving args (past ++ .complete request nsecs :: rest)) {zone : UInt64}
    (reset : request.resets args = some zone) :
    ∃ submitted, finish args past (.complete request nsecs) = some ⟨zone, submitted, nsecs⟩ := by
  have ⟨_, admissible, _⟩ := interleavingFrom_append.mp interleaving
  have ⟨pending, found, _⟩ := admissible (resets_cases reset).1
  have flying : (inFlight args past).find? (·.request == request) = some pending := found
  exact ⟨pending.nsecs, by rw [finish, reset, flying]⟩

theorem finish_some {past : List Event} {event : Event} {reset : FinishedReset}
    (done : finish args past event = some reset) : ∃ request nsecs,
      event = .complete request nsecs ∧ request.resets args = some reset.zone := by
  cases event with
  | setup request nsecs => cases done
  | complete request nsecs =>
    refine ⟨request, nsecs, rfl, ?_⟩
    rw [finish] at done
    split at done
    · next here _ =>
      cases done
      exact here
    · cases done

theorem finish_chronological {past : List Event} {event : Event} {reset : FinishedReset}
    (admissible : Admissible args (inFlight args past) event)
    (done : finish args past event = some reset) : reset.submitted ≤ reset.completed := by
  have ⟨request, nsecs, same, own⟩ := finish_some done
  subst same
  have ⟨pending, found, later⟩ := admissible (resets_cases own).1
  have flying : (inFlight args past).find? (·.request == request) = some pending := found
  rw [finish, own, flying] at done
  rw [← Option.some.inj done]
  exact later

theorem records_eq (interleaving : Interleaving args events) :
    (emitted (record args) [] events).map (fun entry => (entry.1.1, entry.2.toNat)) =
      (finishedResets args events).map fun reset => (reset.zone, reset.latency) := by
  induction events using List.reverseRecOn with
  | nil => rfl
  | append_singleton past event ih =>
    have ⟨before, admissible⟩ := interleaving_snoc.mp interleaving
    rw [finishedResets, emitted_snoc, emitted_snoc, List.map_append, List.map_append, ih before,
      finishedResets, List.nil_append]
    congr 1
    cases done : finish args past event with
    | none => simp [record, done]
    | some reset =>
      have order := finish_chronological admissible done
      simp [record, done, FinishedReset.latency, UInt64.toNat_sub_of_le _ _ order]

theorem resetCtr_between (past between : List Event) (request : Request) (nsecs zone : UInt64) :
    resetCtr args (past ++ .complete request nsecs :: between) zone =
      resetCtr args past zone + UInt64.ofNat (between.countP (·.submits args zone)) := by
  rw [resetCtr, List.countP_append, List.countP_cons_of_neg (by simp [Event.submits]),
    UInt64.ofNat_add, resetCtr]

theorem ctr_moved (ctr : UInt64) (n : Nat) : ctr ≠ ctr + UInt64.ofNat n ↔ n % 2 ^ 64 ≠ 0 := by
  rw [ne_eq, ne_eq, ← UInt64.toNat_inj, UInt64.toNat_add, UInt64.toNat_ofNat']
  have := ctr.toNat_lt
  omega

theorem distinct_iff (interleaving : Interleaving args events) :
    ((emitted (record args) [] events).map Prod.fst).Nodup ↔ Separated args events := by
  rw [List.Nodup, List.pairwise_map, pairwise_emitted]
  simp only [List.nil_append]
  constructor
  · intro distinct before first t between second u after zone split reset again
    have start : Interleaving args (before ++ .complete first t :: between ++
        .complete second u :: after) := by
      rwa [List.append_assoc, List.cons_append, ← split]
    have ⟨submitted, done⟩ := finish_complete (split ▸ interleaving) reset
    have ⟨resubmitted, next⟩ := finish_complete start again
    have apart := distinct before _ between _ after _ _ split
      (by rw [record, done, Option.map_some]) (by rw [record, next, Option.map_some])
    simp only [ne_eq, Prod.mk.injEq, true_and] at apart
    rw [resetCtr_between] at apart
    exact (ctr_moved _ _).mp apart
  · intro separated before first between second after b c split out next same
    have ⟨reset, done, here⟩ := Option.map_eq_some_iff.mp out
    have ⟨again, later, there⟩ := Option.map_eq_some_iff.mp next
    have ⟨request, t, firstly, own⟩ := finish_some done
    have ⟨other, u, secondly, its⟩ := finish_some later
    subst here there firstly secondly
    simp only [Prod.mk.injEq] at same
    have ⟨zone, counter⟩ := same
    rw [← zone, resetCtr_between] at counter
    rw [← zone] at its
    exact (ctr_moved _ _).mpr (separated before request t between other u after _ split own its)
      counter

theorem records_of_zone (interleaving : Interleaving args events) (zone : UInt64) :
    ((emitted (record args) [] events).filter (·.1.1 == zone)).map (fun entry => entry.2.toNat) =
      ((finishedResets args events).filter (·.zone == zone)).map (·.latency) := by
  have same := congrArg (fun list => (list.filter (·.1 == zone)).map Prod.snd)
    (records_eq interleaving)
  simpa only [List.filter_map, List.map_map, Function.comp_def] using same

/-- The reset latencies are all recorded exactly when, between any two completions of resets of a
zone, another reset of that zone is submitted. -/
theorem reset_latencies_iff (args : Args) (bits : Nat) (power : args.zoneSize.toNat = 2 ^ bits)
    (events : List Event) (interleaving : Interleaving args events) :
    Recorded args events ↔ Separated args events := by
  rw [← distinct_iff interleaving]
  have lat := (interleaving_tracked power interleaving).lat
  have length := fun zone => congrArg List.length (records_of_zone interleaving zone)
  simp only [List.length_map] at length
  constructor
  · intro recorded
    rw [List.nodup_iff_count_le_one]
    intro key
    have entries := recorded.counted key.1
    rw [lat, filter_addAll (fun k : UInt64 × UInt64 => k.1 == key.1), List.filter_nil,
      ← length key.1] at entries
    have distinct := distinct_of_length (by simp) (entries.trans (Nat.zero_add _).symm)
    have once := List.nodup_iff_count_le_one.mp distinct key
    have keys : ((emitted (record args) [] events).filter fun entry => entry.1.1 == key.1).map
        Prod.fst = ((emitted (record args) [] events).map Prod.fst).filter (·.1 == key.1) := by
      rw [List.filter_map]
      rfl
    have all : (((emitted (record args) [] events).map Prod.fst).filter (·.1 == key.1)).count key =
        ((emitted (record args) [] events).map Prod.fst).count key :=
      List.count_filter (beq_self_eq_true key.1)
    rwa [List.nil_append, keys, all] at once
  · intro distinct
    have whole : (trace args events).zResetLatMap = emitted (record args) [] events := by
      rw [lat, addAll_distinct (by simpa using distinct), List.nil_append]
    constructor
    · intro zone
      rw [whole, length]
    · intro before after split
      subst split
      have early := (interleavingFrom_append.mp interleaving).1
      rw [emitted_append, List.map_append] at distinct
      rw [whole, (interleaving_tracked power early).lat,
        addAll_distinct (by simpa using (List.nodup_append.mp distinct).1), emitted_append]
      exact List.prefix_append _ _
    · intro zone
      rw [whole, records_of_zone interleaving]

end Records

instance decidableAdmissible (args : Args) (inFlight : List Pending) :
    (event : Event) → Decidable (Admissible args inFlight event)
  | .setup request _ => inferInstanceAs (Decidable (request.diskName = args.diskName →
      ∀ pending ∈ inFlight, pending.request.tag ≠ request.tag))
  | .complete request nsecs => inferInstanceAs (Decidable (request.diskName = args.diskName →
      ∃ pending ∈ inFlight.find? (·.request == request), pending.nsecs ≤ nsecs))

instance decidableInterleavingFrom (args : Args) :
    (inFlight : List Pending) → (events : List Event) →
      Decidable (InterleavingFrom args inFlight events)
  | _, [] => inferInstanceAs (Decidable True)
  | inFlight, event :: rest =>
    have := decidableInterleavingFrom args (takeOff args inFlight event) rest
    inferInstanceAs (Decidable (Admissible args inFlight event ∧
      InterleavingFrom args (takeOff args inFlight event) rest))

instance decidableInterleaving (args : Args) (events : List Event) :
    Decidable (Interleaving args events) :=
  decidableInterleavingFrom args [] events

def smallZones : Args := ⟨[110, 49], 8⟩

def resetRequest (tag : Int32) (slba : UInt64) : Request :=
  ⟨[110, 49], reqOpZoneReset, slba, 0, tag, 0, slba, 0⟩

def overlappingResets : List Event :=
  [.setup (resetRequest 1 8) 10, .setup (resetRequest 2 8) 20,
    .complete (resetRequest 1 8) 30, .complete (resetRequest 2 8) 50]

-- Two resets of one zone in flight at once leave one record.
theorem overlapping_resets_lose_one :
    Interleaving smallZones overlappingResets ∧ ¬ Recorded smallZones overlappingResets := by
  refine ⟨by decide, fun recorded => ?_⟩
  exact absurd (recorded.counted 8) (by decide)

def successiveResets : List Event :=
  [.setup (resetRequest 1 8) 10, .setup (resetRequest 2 16) 20, .complete (resetRequest 1 8) 30,
    .setup (resetRequest 1 8) 40, .complete (resetRequest 2 16) 50,
    .complete (resetRequest 1 8) 60]

theorem successive_resets : Interleaving smallZones successiveResets ∧
    (Recorded smallZones successiveResets ↔ Separated smallZones successiveResets) :=
  have interleaving : Interleaving smallZones successiveResets := by decide
  ⟨interleaving, reset_latencies_iff smallZones 3 rfl successiveResets interleaving⟩

end ZnsTools.Trace
