import TraceForge.Replay.Window

/-! What a replay says it delivered, on every exit.

A record counts once the consumer has accepted it, but it is hashed before the consumer is asked.
`walk_outcome` describes where a walk ends: behind all the records that could be read, or at the
first one that the consumer rejects, which the hash then has and the counters have not. -/
namespace TraceForge.Replay
open Library Telemetry Recording

variable {pb : Protobuf} {content : File}

/-- The record an entry stands for, if the file still has a valid one there. -/
def deliverable (pb : Protobuf) (content : File) (entry : LogIndexEntry) : Option LogRecord :=
  match payloadAt content entry with
  | none => none
  | some payload =>
    if crc32c payload ≠ entry.payloadCrc32c then none
    else match pb.parseFromArray payload with
    | none => none
    | some event =>
      if event.schemaVersion ≠ kTelemetrySchemaVersion ∨
          event.sourceTimestampNs ≠ entry.sourceTimestampNs then none
      else some
        { recordIndex := entry.recordIndex
          fileOffset := entry.fileOffset
          collectorArrivalTimestampNs := entry.collectorArrivalTimestampNs
          event := event }

/-- The records that can be read, up to the first that cannot. -/
def offered (pb : Protobuf) (content : File) :
    List LogIndexEntry → List (LogIndexEntry × LogRecord)
  | [] => []
  | entry :: rest =>
    match deliverable pb content entry with
    | none => []
    | some record => (entry, record) :: offered pb content rest

/-- Of the records a consumer is called with after `calls`, those it accepts. -/
def accepted (consume : List LogRecord → LogRecord → Bool) :
    List LogRecord → List LogRecord → List LogRecord
  | _, [] => []
  | calls, record :: rest =>
    if consume calls record then record :: accepted consume (calls ++ [record]) rest
    else accepted consume (calls ++ [record]) rest

theorem accepted_append (consume : List LogRecord → LogRecord → Bool) (calls a b : List LogRecord) :
    accepted consume calls (a ++ b) =
      accepted consume calls a ++ accepted consume (calls ++ a) b := by
  induction a generalizing calls with
  | nil => simp [accepted]
  | cons record rest ih =>
    have hcalls : calls ++ [record] ++ rest = calls ++ record :: rest := by simp
    rw [List.cons_append, accepted, accepted, ih, hcalls]
    split <;> rfl

theorem accepted_length_le (consume : List LogRecord → LogRecord → Bool)
    (calls records : List LogRecord) :
    (accepted consume calls records).length ≤ records.length := by
  induction records generalizing calls with
  | nil => exact Nat.le_refl _
  | cons record rest ih =>
    have hrest := ih (calls ++ [record])
    rw [accepted]
    split
    · exact Nat.succ_le_succ hrest
    · exact Nat.le_succ_of_le hrest

/-- Not all are accepted when one is rejected. -/
theorem accepted_ne {consume : List LogRecord → LogRecord → Bool} {records : List LogRecord}
    {i : Nat} {record : LogRecord} (h : records[i]? = some record)
    (hrejects : consume (records.take i) record = false) :
    accepted consume [] records ≠ records := by
  intro hall
  obtain ⟨hi, hrecord⟩ := List.getElem?_eq_some_iff.mp h
  have hsplit : records = records.take i ++ record :: records.drop (i + 1) := by
    rw [← hrecord, ← List.drop_eq_getElem_cons hi, List.take_append_drop]
  have hlen := congrArg List.length hall
  rw [hsplit, accepted_append, List.nil_append, accepted, hrejects] at hlen
  have hfront := accepted_length_le consume [] (records.take i)
  have hback := accepted_length_le consume (records.take i ++ [record]) (records.drop (i + 1))
  rw [if_neg Bool.false_ne_true, List.length_append, List.length_append, List.length_cons] at hlen
  omega

/-- What a walk has added to a result: records that were accepted, and records that were hashed. -/
structure Tallied (content : File) (r r' : ReplayResult)
    (taken hashed : List (LogIndexEntry × LogRecord)) : Prop where
  hash : r'.hash = (hashed.flatMap fun p => hashedBytes content p.1).foldl hashByte r.hash
  replayedRecords : r'.replayedRecords = r.replayedRecords + UInt64.ofNat taken.length
  firstTimestampNs : r'.firstTimestampNs =
    r.firstTimestampNs.or (taken.head?.map fun p => p.1.collectorArrivalTimestampNs)
  lastTimestampNs : r'.lastTimestampNs =
    (taken.getLast?.map fun p => p.1.collectorArrivalTimestampNs).or r.lastTimestampNs

theorem tallied_nil (content : File) (d : Delivery) (status : ReplayStatus) (message : String) :
    Tallied content d.result (d.finish status message).result [] [] where
  hash := rfl
  replayedRecords := (UInt64.add_zero _).symm
  firstTimestampNs := (Option.or_none).symm
  lastTimestampNs := rfl

theorem tallied_cons {r r₁ r₂ : ReplayResult} {p : LogIndexEntry × LogRecord}
    {taken hashed : List (LogIndexEntry × LogRecord)} (hp : Tallied content r r₁ [p] [p])
    (hrest : Tallied content r₁ r₂ taken hashed) :
    Tallied content r r₂ (p :: taken) (p :: hashed) where
  hash := by
    have hone : [p].flatMap (fun p => hashedBytes content p.1) = hashedBytes content p.1 :=
      List.flatMap_singleton ..
    rw [hrest.hash, hp.hash, hone, List.flatMap_cons, List.foldl_append]
  replayedRecords := by
    have hlength : (p :: taken).length = [p].length + taken.length := Nat.add_comm ..
    rw [hrest.replayedRecords, hp.replayedRecords, hlength, UInt64.ofNat_add, UInt64.add_assoc]
  firstTimestampNs := by
    rw [hrest.firstTimestampNs, hp.firstTimestampNs]
    cases r.firstTimestampNs <;> rfl
  lastTimestampNs := by
    have hlast : (p :: taken).getLast? = some (taken.getLast?.getD p) := List.getLast?_cons
    rw [hrest.lastTimestampNs, hp.lastTimestampNs, hlast]
    cases taken.getLast? <;> rfl

/-! ### One delivery -/

section Delivery
variable {entry : LogIndexEntry}

/-- A record stands for its entry when the payload is intact. -/
theorem deliverable_eq_some {payload : List UInt8} {event : TelemetryEvent}
    (hpayload : payloadAt content entry = some payload) (h : Intact pb entry payload event) :
    deliverable pb content entry = some (recordOf entry event) := by
  have hvalid := h.valid
  simp only [deliverable, hpayload, h.checksum, h.parses, ne_eq, not_true_eq_false, if_false]
  exact if_neg hvalid

theorem deliverable_some {record : LogRecord} (h : deliverable pb content entry = some record) :
    ∃ payload event, payloadAt content entry = some payload ∧ Intact pb entry payload event ∧
      record = recordOf entry event := by
  unfold deliverable at h
  split at h
  · cases h
  rename_i payload hpayload
  split at h
  · cases h
  rename_i hcrc
  split at h
  · cases h
  rename_i event hparse
  split at h
  · cases h
  rename_i hvalid
  cases h
  exact ⟨payload, event, hpayload, ⟨not_not.mp hcrc, hparse, hvalid⟩, rfl⟩

/-- **One delivery**: the record is hashed, and counted if the consumer accepts it. -/
theorem deliver_deliverable (options : ReplayOptions) (consumer : ReplayConsumer)
    {record : LogRecord} (h : deliverable pb content entry = some record) (d : Delivery) :
    ∃ payload, payloadAt content entry = some payload ∧
      if consumer.all fun consume => consume d.calls record then
        ∃ d', d.deliver pb options consumer entry payload = .ok d' ∧
          Tallied content d.result d'.result [(entry, record)] [(entry, record)] ∧
          d'.calls = d.calls ++ if consumer.isSome then [record] else []
      else
        ∃ d', d.deliver pb options consumer entry payload = .error d' ∧
          Tallied content d.result d'.result [] [(entry, record)] ∧
          d'.calls = d.calls ++ if consumer.isSome then [record] else [] := by
  obtain ⟨payload, event, hpayload, hintact, rfl⟩ := deliverable_some h
  have hdeliver := deliver_intact options consumer hintact d
  have hone (p : LogIndexEntry × LogRecord) :
      [p].flatMap (fun p => hashedBytes content p.1) = hashedBytes content p.1 :=
    List.flatMap_singleton ..
  have hhash := hashRecord_stored hpayload d.result.hash
  refine ⟨payload, hpayload, ?_⟩
  split
  · rename_i haccepts
    rw [if_pos haccepts] at hdeliver
    refine ⟨_, hdeliver, ?_, rfl⟩
    exact
      { hash := by rw [hone]; exact hhash
        replayedRecords := rfl
        firstTimestampNs := by
          cases hfirst : d.result.firstTimestampNs <;>
            simp [Delivery.offer, Delivery.count, hfirst]
        lastTimestampNs := rfl }
  · rename_i hrejects
    rw [if_neg hrejects] at hdeliver
    refine ⟨_, hdeliver, ?_, rfl⟩
    exact
      { hash := by rw [hone]; exact hhash
        replayedRecords := (UInt64.add_zero _).symm
        firstTimestampNs := (Option.or_none).symm
        lastTimestampNs := rfl }

end Delivery

/-! ### The walk -/

/-- Where a walk over some entries ends: behind the `taken` ones of the records that could be
read, which are all of them or stop at one that is rejected. -/
structure Outcome (consumer : ReplayConsumer) (content : File) (d f : Delivery)
    (records : List (LogIndexEntry × LogRecord)) (taken : Nat) : Prop where
  taken_le : taken ≤ records.length
  accepts : ∀ consume, consumer = some consume →
    accepted consume d.calls ((records.take taken).map Prod.snd) =
      (records.take taken).map Prod.snd
  ends : (taken = records.length ∧
      Tallied content d.result f.result (records.take taken) (records.take taken) ∧
      f.calls = d.calls ++ if consumer.isSome then (records.take taken).map Prod.snd else []) ∨
    ∃ p consume, records[taken]? = some p ∧ consumer = some consume ∧
      consume (d.calls ++ (records.take taken).map Prod.snd) p.2 = false ∧
      Tallied content d.result f.result (records.take taken) (records.take taken ++ [p]) ∧
      f.calls = d.calls ++ (records.take taken).map Prod.snd ++ [p.2]

/-- The first record is accepted and the walk goes on from there. -/
theorem outcome_cons {consumer : ReplayConsumer} {d d' f : Delivery}
    {p : LogIndexEntry × LogRecord} {rest : List (LogIndexEntry × LogRecord)} {taken : Nat}
    (haccepts : (consumer.all fun consume => consume d.calls p.2) = true)
    (hone : Tallied content d.result d'.result [p] [p])
    (hcalls : d'.calls = d.calls ++ if consumer.isSome then [p.2] else [])
    (h : Outcome consumer content d' f rest taken) :
    Outcome consumer content d f (p :: rest) (taken + 1) where
  taken_le := Nat.succ_le_succ h.taken_le
  accepts := by
    rintro consume rfl
    have hrest := h.accepts consume rfl
    have hp : consume d.calls p.2 = true := haccepts
    rw [hcalls] at hrest
    rw [List.take_succ_cons, List.map_cons, accepted, if_pos hp]
    exact congrArg (p.2 :: ·) hrest
  ends := by
    rw [List.take_succ_cons]
    rcases h.ends with ⟨htaken, htally, hfinal⟩ | ⟨q, consume, hq, rfl, hrejects, htally, hfinal⟩
    · refine .inl ⟨by rw [htaken, List.length_cons], tallied_cons hone htally, ?_⟩
      rw [hfinal, hcalls]
      cases consumer <;> simp
    · rw [hcalls] at hrejects hfinal
      refine .inr ⟨q, consume, hq, rfl, ?_, tallied_cons hone htally, ?_⟩
      · rw [← hrejects]
        simp
      · rw [hfinal]
        simp

theorem outcome_stopped (consumer : ReplayConsumer) (content : File) (d : Delivery)
    (status : ReplayStatus) (message : String) :
    Outcome consumer content d (d.finish status message) [] 0 where
  taken_le := Nat.le_refl _
  accepts := fun _ _ => rfl
  ends := .inl ⟨rfl, tallied_nil content d status message, by
    cases consumer <;> exact (List.append_nil _).symm⟩

/-- An entry that cannot be delivered ends the walk. -/
theorem walk_undeliverable {options : ReplayOptions} (consumer : ReplayConsumer)
    {entry : LogIndexEntry} (hin : pastWindow options entry = false)
    (h : deliverable pb content entry = none) (rest : List LogIndexEntry) (d : Delivery) :
    ∃ status message, replayPayloads pb options consumer content (entry :: rest) d =
      d.finish status message := by
  cases hpayload : payloadAt content entry with
  | none => exact ⟨_, _, replayPayloads_unreadable hin hpayload rest⟩
  | some payload =>
    have hbroken : ∀ event, ¬Intact pb entry payload event := by
      intro event hintact
      rw [deliverable_eq_some hpayload hintact] at h
      cases h
    obtain ⟨status, message, _, hdeliver⟩ := deliver_broken options consumer hbroken d
    exact ⟨status, message, replayPayloads_error hin hpayload hdeliver rest⟩

/-- **The walk** over entries of the window. -/
theorem walk_outcome (pb : Protobuf) (options : ReplayOptions) (consumer : ReplayConsumer)
    (content : File) (entries : List LogIndexEntry)
    (hwindow : ∀ entry ∈ entries, pastWindow options entry = false) (d : Delivery) :
    ∃ taken, Outcome consumer content d (replayPayloads pb options consumer content entries d)
      (offered pb content entries) taken := by
  induction entries generalizing d with
  | nil => exact ⟨0, outcome_stopped consumer content d _ _⟩
  | cons entry rest ih =>
    obtain ⟨hin, hins⟩ := List.forall_mem_cons.mp hwindow
    cases hrecord : deliverable pb content entry with
    | none =>
      obtain ⟨status, message, hstops⟩ := walk_undeliverable consumer hin hrecord rest d
      rw [hstops, offered, hrecord]
      exact ⟨0, outcome_stopped consumer content d status message⟩
    | some record =>
      obtain ⟨payload, hpayload, hdeliver⟩ := deliver_deliverable options consumer hrecord d
      rw [offered, hrecord]
      split at hdeliver
      · rename_i haccepts
        obtain ⟨d', hok, hone, hcalls⟩ := hdeliver
        obtain ⟨taken, hrest⟩ := ih hins d'
        rw [replayPayloads_ok hin hpayload hok]
        exact ⟨taken + 1, outcome_cons haccepts hone hcalls hrest⟩
      · rename_i hrejects
        obtain ⟨d', herror, hone, hcalls⟩ := hdeliver
        rw [replayPayloads_error hin hpayload herror]
        cases consumer with
        | none => exact absurd rfl hrejects
        | some consume =>
          have hrejects : consume d.calls record = false := Bool.eq_false_iff.mpr hrejects
          refine ⟨0,
            { taken_le := Nat.zero_le _
              accepts := fun _ _ => rfl
              ends := .inr ⟨(entry, record), consume, rfl, rfl, ?_, hone, ?_⟩ }⟩
          · simpa using hrejects
          · simpa using hcalls

/-! ### The result -/

/-- The result is that of the records the consumer accepted, which are the first of the selected
ones. -/
structure Describes (pb : Protobuf) (content : File) (selected : List LogIndexEntry)
    (consumer : ReplayConsumer) (d : Delivery) : Prop where
  replayed_le : d.result.replayedRecords.toNat ≤ selected.length
  readable : ∀ entry ∈ selected.take d.result.replayedRecords.toNat,
    deliverable pb content entry ≠ none
  accepted : ∀ consume, consumer = some consume →
    (accepted consume [] d.calls).map some =
      (selected.take d.result.replayedRecords.toNat).map (deliverable pb content)
  firstTimestampNs : d.result.firstTimestampNs =
    (selected.take d.result.replayedRecords.toNat).head?.map
      LogIndexEntry.collectorArrivalTimestampNs
  lastTimestampNs : d.result.lastTimestampNs =
    (selected.take d.result.replayedRecords.toNat).getLast?.map
      LogIndexEntry.collectorArrivalTimestampNs
  hash : d.result.hash =
    fnv1a ((selected.take d.result.replayedRecords.toNat).flatMap (hashedBytes content))

/-- The first record that the consumer rejects, if there is one, does not move the hash. -/
def RejectsUnseen (pb : Protobuf) (content : File) (selected : List LogIndexEntry)
    (consumer : ReplayConsumer) : Prop :=
  ∀ (i : Nat) (p : LogIndexEntry × LogRecord) (consume : List LogRecord → LogRecord → Bool),
    consumer = some consume → (offered pb content selected)[i]? = some p →
    let earlier := ((offered pb content selected).take i).map Prod.snd
    accepted consume [] earlier = earlier → consume earlier p.2 = false →
    fnv1a ((selected.take (i + 1)).flatMap (hashedBytes content)) =
      fnv1a ((selected.take i).flatMap (hashedBytes content))

/-- The records offered are those of the first entries. -/
theorem offered_take (entries : List LogIndexEntry) {k : Nat}
    (hk : k ≤ (offered pb content entries).length) :
    ((offered pb content entries).take k).map Prod.fst = entries.take k ∧
      (((offered pb content entries).take k).map fun p => some p.2) =
        (entries.take k).map (deliverable pb content) := by
  induction entries generalizing k with
  | nil => simp [offered]
  | cons entry rest ih =>
    cases k with
    | zero => exact ⟨rfl, rfl⟩
    | succ k =>
      rw [offered] at hk ⊢
      cases hrecord : deliverable pb content entry with
      | none =>
        rw [hrecord] at hk
        cases hk
      | some record =>
        rw [hrecord] at hk
        simp only at hk ⊢
        obtain ⟨hfst, hsnd⟩ := ih (Nat.le_of_succ_le_succ hk)
        rw [List.take_succ_cons, List.take_succ_cons, List.map_cons, List.map_cons, List.map_cons,
          hfst, hsnd, hrecord]
        exact ⟨rfl, rfl⟩

theorem offered_length_le (entries : List LogIndexEntry) :
    (offered pb content entries).length ≤ entries.length := by
  have htake : ((offered pb content entries).take (offered pb content entries).length).map Prod.fst =
      entries.take (offered pb content entries).length := (offered_take entries (Nat.le_refl _)).1
  have hlen := congrArg List.length htake
  rw [List.length_map, List.take_length, List.length_take] at hlen
  omega

/-- A delivery before its first record. -/
def Fresh (d : Delivery) : Prop :=
  d.calls = [] ∧ d.result.hash = kFnvOffsetBasis ∧ d.result.replayedRecords = 0 ∧
    d.result.firstTimestampNs = none ∧ d.result.lastTimestampNs = none

/-- Nothing was delivered when the walk has not begun. -/
theorem describes_fresh {d : Delivery} (hd : Fresh d) (selected : List LogIndexEntry)
    (consumer : ReplayConsumer) (status : ReplayStatus) (message : String) :
    Describes pb content selected consumer (d.finish status message) := by
  obtain ⟨hcalls, hbasis, hcount, hfirst, hlast⟩ := hd
  have hnone : (d.finish status message).result.replayedRecords.toNat = 0 := by
    show d.result.replayedRecords.toNat = 0
    rw [hcount]
    rfl
  have hempty : (d.finish status message).calls = [] := hcalls
  refine
    { replayed_le := by rw [hnone]; exact Nat.zero_le _
      readable := by rw [hnone]; exact fun entry h => absurd h List.not_mem_nil
      accepted := fun consume _ => by rw [hnone, hempty]; rfl
      firstTimestampNs := by rw [hnone]; exact hfirst
      lastTimestampNs := by rw [hnone]; exact hlast
      hash := by rw [hnone]; exact hbasis }

section Outcome
variable {consumer : ReplayConsumer} {d f : Delivery} {selected : List LogIndexEntry} {taken : Nat}

/-- What was hashed is what the selected entries contribute. -/
theorem hashed_selected (k : Nat) (hk : k ≤ (offered pb content selected).length) :
    (((offered pb content selected).take k).flatMap fun p => hashedBytes content p.1) =
      (selected.take k).flatMap (hashedBytes content) := by
  rw [← (offered_take selected hk).1, List.flatMap_map]

/-- Only the hash can fail to describe what was delivered. -/
theorem describes_iff_hash (hd : Fresh d)
    (h : Outcome consumer content d f (offered pb content selected) taken)
    (hselected : selected.length < 2 ^ 63) :
    Describes pb content selected consumer f ↔
      f.result.hash = fnv1a ((selected.take taken).flatMap (hashedBytes content)) := by
  obtain ⟨hcalls, _, hcount, hfirst, hlast⟩ := hd
  obtain ⟨hfst, hsnd⟩ := offered_take selected h.taken_le
  have hle := Nat.le_trans h.taken_le (offered_length_le selected)
  obtain ⟨hashed, htally⟩ : ∃ hashed, Tallied content d.result f.result
      ((offered pb content selected).take taken) hashed := by
    rcases h.ends with ⟨_, htally, _⟩ | ⟨_, _, _, _, _, htally, _⟩ <;> exact ⟨_, htally⟩
  have hreplayed : f.result.replayedRecords.toNat = taken := by
    rw [htally.replayedRecords, hcount, UInt64.zero_add, UInt64.toNat_ofNat', List.length_take,
      Nat.min_eq_left h.taken_le]
    omega
  constructor
  · intro hdescribes
    have hhash := hdescribes.hash
    rwa [hreplayed] at hhash
  · intro hhash
    refine
      { replayed_le := by rw [hreplayed]; exact hle
        readable := fun entry hentry => ?_
        accepted := ?_
        firstTimestampNs := ?_
        lastTimestampNs := ?_
        hash := by rw [hreplayed]; exact hhash }
    · rw [hreplayed] at hentry
      have hmem := List.mem_map_of_mem (f := deliverable pb content) hentry
      rw [← hsnd] at hmem
      obtain ⟨p, _, hp⟩ := List.mem_map.mp hmem
      rw [← hp]
      exact Option.some_ne_none _
    · rintro consume rfl
      have haccepts := h.accepts consume rfl
      rw [hcalls] at haccepts
      rw [hreplayed, ← hsnd]
      have hall : accepted consume [] f.calls =
          ((offered pb content selected).take taken).map Prod.snd := by
        rcases h.ends with ⟨_, _, hfinal⟩ | ⟨p, consume', _, hsame, hrejects, _, hfinal⟩
        · rw [hfinal, hcalls]
          exact haccepts
        · cases hsame
          rw [hcalls, List.nil_append] at hrejects hfinal
          rw [hfinal, accepted_append, haccepts, List.nil_append, accepted, hrejects]
          exact List.append_nil _
      rw [hall, List.map_map]
      rfl
    · rw [htally.firstTimestampNs, hfirst, hreplayed, ← hfst, List.head?_map]
      cases ((offered pb content selected).take taken).head? <;> rfl
    · rw [htally.lastTimestampNs, hlast, hreplayed, ← hfst, List.getLast?_map]
      cases ((offered pb content selected).take taken).getLast? <;> rfl

/-- **The hash describes what was delivered** unless it has moved at a rejected record. -/
theorem describes_iff (hd : Fresh d)
    (h : Outcome consumer content d f (offered pb content selected) taken)
    (hselected : selected.length < 2 ^ 63) :
    Describes pb content selected consumer f ↔ RejectsUnseen pb content selected consumer := by
  rw [describes_iff_hash hd h hselected]
  obtain ⟨hcalls, hbasis, _⟩ := hd
  rcases h.ends with ⟨htaken, htally, _⟩ | ⟨p, consume, hp, rfl, hrejects, htally, _⟩
  · have hhash := htally.hash
    rw [hbasis, hashed_selected taken h.taken_le] at hhash
    refine ⟨fun _ i q consume hconsume hq _ hrejects => ?_, fun _ => hhash⟩
    have haccepts := h.accepts consume hconsume
    rw [hcalls, htaken, List.take_length] at haccepts
    have hcalled : ((offered pb content selected).map Prod.snd)[i]? = some q.2 := by
      rw [List.getElem?_map, hq]
      rfl
    exact absurd haccepts (accepted_ne hcalled (by rw [← List.map_take]; exact hrejects))
  · have hnext : (offered pb content selected).take taken ++ [p] =
        (offered pb content selected).take (taken + 1) := by
      rw [List.take_add_one, hp]
      rfl
    have hin := (List.getElem?_eq_some_iff.mp hp).1
    have hhash := htally.hash
    rw [hbasis, hnext, hashed_selected (taken + 1) hin] at hhash
    have haccepts := h.accepts consume rfl
    rw [hcalls] at hrejects haccepts
    constructor
    · intro hsame i q consume' hsome hq earlier haccepted hrejected
      cases hsome
      have hcalled (k : Nat) {j : Nat} {r : LogIndexEntry × LogRecord} (hj : j < k)
          (hr : (offered pb content selected)[j]? = some r) :
          (((offered pb content selected).take k).map Prod.snd)[j]? = some r.2 := by
        rw [List.getElem?_map, List.getElem?_take_of_lt hj, hr]
        rfl
      have hcut {j k : Nat} (hj : j ≤ k) :
          (((offered pb content selected).take k).map Prod.snd).take j =
            ((offered pb content selected).take j).map Prod.snd := by
        rw [← List.map_take, List.take_take, Nat.min_eq_left hj]
      rcases Nat.lt_trichotomy i taken with hbefore | rfl | hbehind
      · refine absurd haccepts (accepted_ne (hcalled taken hbefore hq) ?_)
        rw [hcut (Nat.le_of_lt hbefore)]
        exact hrejected
      · exact hhash.symm.trans hsame
      · refine absurd haccepted (accepted_ne (hcalled i hbehind hp) ?_)
        rw [hcut (Nat.le_of_lt hbehind)]
        exact hrejects
    · intro hunseen
      exact hhash.trans (hunseen taken p consume rfl hp haccepts hrejects)

end Outcome

/-! ### Every replay -/

/-- The options a replay accepts. -/
structure ReplayOptions.Valid (options : ReplayOptions) : Prop where
  finite : options.speed.isFinite = true
  nonnegative : options.speed.lessThan 0 = false
  ordered : ∀ first last, options.fromCollectorTimestampNs = some first →
    options.untilCollectorTimestampNs = some last → first < last

/-- The entries of an index in a window, in replay order. -/
def ReplayEngine.selected (options : ReplayOptions) (engine : ReplayEngine) : List LogIndexEntry :=
  engine.index.filter fun entry => inWindow options entry.collectorArrivalTimestampNs

/-- **A replay's result describes what was delivered**, whatever its status, exactly when no
rejected record has moved the hash. -/
theorem replay_described_iff (pb : Protobuf) (access : Access) (file : File)
    (maximumRecords : UInt64) (options : ReplayOptions) (consumer : ReplayConsumer) (content : File)
    (hoptions : options.Valid) :
    let engine := ReplayEngine.create pb access file maximumRecords
    let selected := engine.selected options
    (Describes pb content selected consumer (engine.replay pb (some content) options consumer) ↔
      RejectsUnseen pb content selected consumer) ∧
    Describes pb content selected consumer (engine.replay pb none options consumer) := by
  intro engine selected
  have hfresh : Fresh engine.begun := ⟨rfl, rfl, rfl, rfl, rfl⟩
  rcases create_cases pb access file maximumRecords with ⟨message, hrefused⟩ | ⟨L, hb, _, hlayout⟩
  · have hengine : engine = ⟨[], "cannot index telemetry log: " ++ message⟩ := hrefused
    have hbad : engine.good = false := by
      rw [hengine, ReplayEngine.good]
      simp
    have hreplay (found : Option File) : Describes pb content selected consumer
        (engine.replay pb found options consumer) := by
      unfold ReplayEngine.replay ReplayEngine.replayWith
      simp only [hbad, Bool.not_false, if_true]
      exact describes_fresh hfresh selected consumer _ _
    have hnone : selected = [] := by
      rw [show selected = engine.selected options from rfl, hengine]
      rfl
    refine ⟨iff_of_true (hreplay _) ?_, hreplay none⟩
    intro i p consume _ hp
    rw [hnone] at hp
    cases hp
  · have hengine : engine = ⟨L.index.insertionSort Before, ""⟩ := hlayout
    have hlength : selected.length < 2 ^ 63 := by
      refine Nat.lt_of_le_of_lt (List.length_filter_le _ _) ?_
      rw [hengine, List.length_insertionSort, L.index_length]
      exact Layout.frames_length_lt hb
    have hgood : engine.good = true := by
      rw [hengine]
      rfl
    have hordered := bounds_ordered hoptions.ordered
    constructor
    · have hwalk : engine.replay pb (some content) options consumer =
          replayPayloads pb options consumer content selected engine.begun :=
        replay_walk pb access file maximumRecords consumer content hgood hoptions.finite
          hoptions.nonnegative hordered
      obtain ⟨taken, houtcome⟩ := walk_outcome pb options consumer content selected
        (fun entry h => inWindow_pastWindow (List.mem_filter.mp h).2) engine.begun
      rw [hwalk]
      exact describes_iff hfresh houtcome hlength
    · unfold ReplayEngine.replay ReplayEngine.replayWith
      simp only [hgood, hoptions.finite, hoptions.nonnegative, hordered, Bool.not_true,
        Bool.or_self, Bool.false_eq_true, if_false]
      exact describes_fresh hfresh selected consumer _ _

theorem sampleOptions_valid : sampleOptions.Valid where
  finite := by decide +kernel
  nonnegative := by decide +kernel
  ordered first last hfirst hlast := by
    rw [← Option.some.inj hfirst, ← Option.some.inj hlast]
    decide

def sampleEngine : ReplayEngine := .create samplePb .granted sampleFile 4

/-- The file has become shorter: the records at 10 are delivered, the one at 20 is gone. -/
theorem replay_described_shortened :
    let replay := sampleEngine.replay samplePb (some (sampleFile.cut 250)) sampleOptions
      (some fun _ _ => true)
    Describes samplePb (sampleFile.cut 250) (sampleEngine.selected sampleOptions)
        (some fun _ _ => true) replay ∧
      replay.result.status = .ioError ∧ replay.result.replayedRecords = 2 := by
  refine ⟨?_, by decide +kernel, by decide +kernel⟩
  refine (replay_described_iff samplePb .granted sampleFile 4 sampleOptions (some fun _ _ => true)
    (sampleFile.cut 250) sampleOptions_valid).1.mpr ?_
  intro i p consume hconsume _ earlier _ hrejects
  cases hconsume
  cases hrejects

/-- A consumer that rejects the first record: nothing was delivered, and the hash has it. -/
theorem replay_rejected_hashed :
    let replay := sampleEngine.replay samplePb (some sampleFile) sampleOptions
      (some fun _ _ => false)
    replay.result.status = .consumerError ∧ replay.result.replayedRecords = 0 ∧
      ¬Describes samplePb sampleFile (sampleEngine.selected sampleOptions)
        (some fun _ _ => false) replay := by
  intro replay
  have hstatus : replay.result.status = .consumerError := by decide +kernel
  have hreplayed : replay.result.replayedRecords = 0 := by decide +kernel
  have hmoved : replay.result.hash ≠ kFnvOffsetBasis := by decide +kernel
  refine ⟨hstatus, hreplayed, fun h => hmoved ?_⟩
  have hhash := h.hash
  rw [hreplayed] at hhash
  exact hhash

end TraceForge.Replay
