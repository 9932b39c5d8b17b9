import TraceForge.Analysis.Counters

/-! When the reported gaps are the true ones.

`sequence_gaps` is a sum of 64 bits, and a producer that starts again from a low number can miss
nearly 2^64 numbers more than once. What is reported is the true sum modulo 2^64, so gaps hide
exactly when the true sum does not fit. -/
namespace TraceForge.Analysis
open Library Telemetry Recording

/-- Neighbours between which a number is missing. -/
def Skips (pair : UInt64 × UInt64) : Prop := pair.1.toNat + 1 < pair.2.toNat

/-- The reported gaps of a producer are the true ones, and are none only if nothing is missing. -/
structure GapsExact (sequences : List UInt64) (reported : UInt64) : Prop where
  exact : reported.toNat = missing sequences
  none : reported = 0 → ∀ pair ∈ adjacent sequences, ¬Skips pair

theorem missing_zero {sequences : List UInt64} (h : missing sequences = 0) :
    ∀ pair ∈ adjacent sequences, ¬Skips pair := by
  intro pair hpair hskips
  have hterm := List.sum_eq_zero_iff_forall_eq_nat.mp h _ (List.mem_map_of_mem hpair)
  have hskips : pair.1.toNat + 1 < pair.2.toNat := hskips
  have hlt : pair.1 < pair.2 := UInt64.lt_iff_toNat_lt.mpr (by omega)
  simp only [if_pos hlt] at hterm
  omega

/-- A sum modulo 2^64 is the sum if it fits. -/
theorem gapsExact_iff {sequences : List UInt64} {reported : UInt64}
    (h : reported.toNat = missing sequences % 2 ^ 64) :
    GapsExact sequences reported ↔ missing sequences < 2 ^ 64 := by
  constructor
  · intro hexact
    rw [← hexact.exact]
    exact reported.toNat_lt
  · intro hlt
    rw [Nat.mod_eq_of_lt hlt] at h
    refine ⟨h, fun hzero => missing_zero ?_⟩
    rw [← h, hzero]
    rfl

/-- **The reported gaps are the true ones** exactly when the numbers that a producer's records
miss are fewer than 2^64. Every producer of the log has its entry. -/
theorem gaps_exact_iff (digits : ℕ) (pb : Protobuf) (access : Access) (file : File)
    (maximumRecords : UInt64)
    (hcomplete : (logToAnalyze pb access file maximumRecords).status = .complete) :
    let events := eventsOf (logToAnalyze pb access file maximumRecords)
    let report := analyzeLog digits pb access file maximumRecords
    (∀ event ∈ events, ∃ stats ∈ report.producers, stats.producerId = event.producerId) ∧
      ∀ stats ∈ report.producers,
        GapsExact (sequencesOf stats.producerId events) stats.sequenceGaps ↔
          missing (sequencesOf stats.producerId events) < 2 ^ 64 := by
  intro events report
  have hcounts : report.Counts events := analyzeLog_counts digits hcomplete
  refine ⟨fun event hevent => ?_, fun stats hstats => ?_⟩
  · have hname := (hcounts.producers.mem event.producerId).mpr (List.mem_map_of_mem hevent)
    exact List.mem_map.mp hname
  · exact gapsExact_iff (hcounts.perProducer stats hstats).sequenceGaps

/-- Two and three are missing. -/
theorem gaps_exact_gap : ∃ stats ∈ (analyzeLog 64 gapPb .granted gapLog).producers,
    stats.producerId = [0x70] ∧ GapsExact [1, 4] stats.sequenceGaps := by
  obtain ⟨hall, hexact⟩ := gaps_exact_iff 64 gapPb .granted gapLog 1000000 (by rw [gap_read]; rfl)
  have hevent : Wire.sampleEvent 1 ∈ eventsOf (logToAnalyze gapPb .granted gapLog 1000000) := by
    rw [gap_read]
    exact List.mem_cons_self
  obtain ⟨stats, hstats, hname⟩ := hall _ hevent
  have hgaps := hexact stats hstats
  rw [gap_read, hname] at hgaps
  exact ⟨stats, hstats, hname, hgaps.mpr (by decide)⟩

/-! ### A producer that starts again -/

def restartPb : Protobuf := Wire.protobuf [Wire.sampleEvent 0, Wire.sampleEvent 0x8000000000000001]

def restartFrame (sequenceNumber : UInt64) (arrival : Int64)
    (h : sequenceNumber = 0 ∨ sequenceNumber = 0x8000000000000001) : Frame restartPb where
  arrival := arrival
  payload := Wire.encode (Wire.sampleEvent sequenceNumber)
  event := Wire.sampleEvent sequenceNumber
  payload_le := by rcases h with rfl | rfl <;> decide +kernel
  parses := by rcases h with rfl | rfl <;> decide +kernel
  schema := rfl

/-- Twice from zero to just behind half of the numbers. -/
def restartLayout : Layout restartPb where
  header := sampleLayout.header
  frames :=
    [restartFrame 0 5 (by decide), restartFrame 0x8000000000000001 6 (by decide),
      restartFrame 0 7 (by decide), restartFrame 0x8000000000000001 8 (by decide)]

def restartLog : File where
  bytes := restartLayout.bytes
  length_lt := by
    rw [Layout.bytes_length]
    decide +kernel

theorem restart_read : logToAnalyze restartPb .granted restartLog 1000000 =
    restartLayout.result restartLog { maximumRecords := 1000000, retainRecords := true } complete :=
  readLog_complete _ rfl (by decide)

/-- 2^64 numbers are missing, and none are reported. -/
theorem gaps_hidden :
    (logToAnalyze restartPb .granted restartLog 1000000).status = .complete ∧
      ∃ stats ∈ (analyzeLog 64 restartPb .granted restartLog).producers,
        let sequences := sequencesOf stats.producerId
          (eventsOf (logToAnalyze restartPb .granted restartLog 1000000))
        stats.sequenceGaps = 0 ∧ missing sequences = 2 ^ 64 ∧
          ¬GapsExact sequences stats.sequenceGaps := by
  have hcomplete : (logToAnalyze restartPb .granted restartLog 1000000).status = .complete := by
    rw [restart_read]
    rfl
  have hcounts := analyzeLog_counts 64 hcomplete
  have hin : ([0x70] : List UInt8) ∈
      (eventsOf (logToAnalyze restartPb .granted restartLog 1000000)).map
        TelemetryEvent.producerId := by
    rw [restart_read]
    decide
  obtain ⟨stats, hstats, hname⟩ := List.mem_map.mp ((hcounts.producers.mem _).mpr hin)
  have hmissing : missing (sequencesOf stats.producerId
      (eventsOf (logToAnalyze restartPb .granted restartLog 1000000))) = 2 ^ 64 := by
    rw [hname, restart_read]
    decide
  have hreported := (hcounts.perProducer stats hstats).sequenceGaps
  refine ⟨hcomplete, stats, hstats, ?_, hmissing, fun hexact => ?_⟩
  · rw [hmissing] at hreported
    exact UInt64.toNat_inj.mp hreported
  · have hlt := (gapsExact_iff hreported).mp hexact
    rw [hmissing] at hlt
    exact Nat.lt_irrefl _ hlt

end TraceForge.Analysis
