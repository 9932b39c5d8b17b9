import TraceForge.App.Options
import TraceForge.Generator.Schedule
import TraceForge.Telemetry.CollectorService

/-! What a command line can ask for.

The loop goes on behind arguments that were read in full as if it began there (`parse_append`), and
what every option preserves holds of the options it ends with (`parse_invariant`). So the options
of `collect` are those within the bounds of its options (`collector_options`), and with those of
`generate` the generator's constructor can only refuse the drift or a probability
(`generator_options`). -/
namespace TraceForge.App
open Library Generator
open Decimal

/-! ### The loop -/

namespace Command

variable {α : Type} {c : Command α} {o : α}

theorem parse_flag {option : Text} {rest : List Text} {set : α → α}
    (hhelp : isHelp option = false) (hflag : entry c.flags option = some set) :
    c.parse (option :: rest) o = c.parse rest (set o) := by
  cases rest <;> simp only [parse, hhelp, hflag, Bool.false_eq_true, if_false]

theorem parse_option {option value : Text} {rest : List Text} {set : Setter α} {next : α}
    (hhelp : isHelp option = false) (hflag : entry c.flags option = none)
    (hoption : entry c.options option = some set) (hset : set option value o = .ok next) :
    c.parse (option :: value :: rest) o = c.parse rest next := by
  simp only [parse, hhelp, hflag, hoption, hset, Bool.false_eq_true, if_false]

/-- **Behind options that were read** the loop is as if it began there. -/
theorem parse_append {args more : List Text} {set : α} (h : c.parse args o = .ok (.options set)) :
    c.parse (args ++ more) o = c.parse more set := by
  fun_induction parse c args o with
  | case1 o =>
    cases h
    rfl
  | case3 option rest o hhelp next hflag ih =>
    rw [List.cons_append, parse_flag (Bool.eq_false_of_not_eq_true hhelp) hflag]
    exact ih h
  | case7 option o hhelp hflag value rest setter hoption next hset ih =>
    rw [List.cons_append, List.cons_append,
      parse_option (Bool.eq_false_of_not_eq_true hhelp) hflag hoption hset]
    exact ih h
  | _ => cases h

theorem mem_of_entry {β : Type} {table : List (String × β)} {option : Text} {b : β}
    (h : entry table option = some b) : ∃ name, (name, b) ∈ table := by
  obtain ⟨found, hfound, rfl⟩ := Option.map_eq_some_iff.mp h
  exact ⟨found.1, List.mem_of_find?_eq_some hfound⟩

/-- **What every option preserves**, a command line preserves. -/
theorem parse_invariant (inv : α → Prop) (hflags : ∀ flag ∈ c.flags, ∀ o, inv o → inv (flag.2 o))
    (hoptions : ∀ option ∈ c.options, ∀ name value o next, inv o →
      option.2 name value o = .ok next → inv next) {args : List Text} {set : α} (ho : inv o)
    (h : c.parse args o = .ok (.options set)) : inv set := by
  fun_induction parse c args o with
  | case1 o =>
    cases h
    exact ho
  | case3 option rest o hhelp next hflag ih =>
    obtain ⟨name, hmem⟩ := mem_of_entry hflag
    exact ih (hflags _ hmem o ho) h
  | case7 option o hhelp hflag value rest setter hoption next hset ih =>
    obtain ⟨name, hmem⟩ := mem_of_entry hoption
    exact ih (hoptions _ hmem option value o next ho hset) h
  | _ => cases h

end Command

/-! ### Setters -/

section Setters
variable {α : Type} {type : IntegerType} {option value : Text} {o next : α}

theorem parseInteger_ok {v : ℤ} :
    parseInteger type value option = .ok v ↔ Spells type value v := by
  rw [← fromChars_iff, parseInteger]
  split
  · rename_i parsed hparsed
    rw [hparsed]
    simp
  · rename_i hother
    exact iff_of_false (fun h => by cases h) fun h => hother v h

theorem setInteger_ok {set : ℤ → α → α} :
    setInteger type set option value o = .ok next ↔ ∃ v, Spells type value v ∧ set v o = next := by
  rw [setInteger]
  cases hparsed : parseInteger type value option with
  | error message =>
    refine iff_of_false (fun h => by cases h) fun ⟨v, hv, _⟩ => ?_
    rw [parseInteger_ok.mpr hv] at hparsed
    cases hparsed
  | ok v =>
    have hv := parseInteger_ok.mp hparsed
    refine ⟨fun h => ⟨v, hv, Except.ok.inj h⟩, fun ⟨u, hu, h⟩ => ?_⟩
    cases (parseInteger_ok.mpr hu).symm.trans hparsed
    exact congrArg Except.ok h

theorem setBounded_ok {low high : ℤ} {message : String} {set : ℤ → α → α} :
    setBounded type low high message set option value o = .ok next ↔
      ∃ v, Spells type value v ∧ low ≤ v ∧ v ≤ high ∧ set v o = next := by
  rw [setBounded]
  cases hparsed : parseInteger type value option with
  | error message =>
    refine iff_of_false (fun h => by cases h) fun ⟨v, hv, _⟩ => ?_
    rw [parseInteger_ok.mpr hv] at hparsed
    cases hparsed
  | ok v =>
    have hv := parseInteger_ok.mp hparsed
    simp only [Except.bind]
    split
    · rename_i hout
      refine iff_of_false (fun h => by cases h) fun ⟨u, hu, hlow, hhigh, _⟩ => ?_
      cases (parseInteger_ok.mpr hu).symm.trans hparsed
      omega
    · rename_i hin
      rw [not_or, not_lt, not_lt] at hin
      refine ⟨fun h => ⟨v, hv, hin.1, hin.2, Except.ok.inj h⟩, fun ⟨u, hu, _, _, h⟩ => ?_⟩
      cases (parseInteger_ok.mpr hu).symm.trans hparsed
      exact congrArg Except.ok h

theorem setProbability_ok {set : UInt32 → α → α} :
    setProbability set option value o = .ok next ↔
      ∃ p : UInt32, Spells uint64 value p.toNat ∧ set p o = next := by
  rw [setProbability, parseProbability]
  cases hparsed : parseInteger uint64 value option with
  | error message =>
    refine iff_of_false (fun h => by cases h) fun ⟨p, hp, _⟩ => ?_
    rw [parseInteger_ok.mpr hp] at hparsed
    cases hparsed
  | ok v =>
    have hv := parseInteger_ok.mp hparsed
    simp only [Except.bind]
    split
    · rename_i hout
      refine iff_of_false (fun h => by cases h) fun ⟨p, hp, _⟩ => ?_
      cases (parseInteger_ok.mpr hp).symm.trans hparsed
      have hlt := p.toNat_lt
      omega
    · rename_i hin
      have hlow : 0 ≤ v := hv.2.1
      have hcast : ((UInt32.ofNat v.toNat).toNat : ℤ) = v := by
        rw [UInt32.toNat_ofNat_of_lt' (by simp only [UInt32.size]; omega)]
        exact Int.toNat_of_nonneg hlow
      refine ⟨fun h => ⟨UInt32.ofNat v.toNat, by rwa [hcast], Except.ok.inj h⟩, fun ⟨p, hp, h⟩ => ?_⟩
      cases (parseInteger_ok.mpr hp).symm.trans hparsed
      rw [Int.toNat_natCast, UInt32.ofNat_toNat]
      exact congrArg Except.ok h

end Setters

/-! ### Fixed-width values -/

theorem spells_toNat (n : UInt64) : Spells uint64 (render n.toNat) n.toNat := by
  have hlt := n.toNat_lt
  exact spells_render ⟨Int.natCast_nonneg _, show (n.toNat : ℤ) ≤ 2 ^ 64 - 1 by omega⟩
    fun h => absurd h (by omega)

theorem spells_probability (p : UInt32) : Spells uint64 (render p.toNat) p.toNat := by
  have hlt := p.toNat_lt
  exact spells_render ⟨Int.natCast_nonneg _, show (p.toNat : ℤ) ≤ 2 ^ 64 - 1 by omega⟩
    fun h => absurd h (by omega)

theorem spells_toInt (x : Int64) : Spells int64 (render x.toInt) x.toInt := by
  have hlow := x.le_toInt
  have hhigh := x.toInt_lt
  exact spells_render ⟨show (-2 ^ 63 : ℤ) ≤ _ by omega, show _ ≤ (2 ^ 63 - 1 : ℤ) by omega⟩
    fun _ => rfl

theorem toInt_of_spells {text : Text} {v : ℤ} (h : Spells int64 text v) :
    (Int64.ofInt v).toInt = v := by
  obtain ⟨_, hlow, hhigh⟩ := h
  have hlow : -2 ^ 63 ≤ v := hlow
  have hhigh : v ≤ 2 ^ 63 - 1 := hhigh
  rw [Int64.toInt_ofInt]
  exact Signed.bmod_inRange ⟨by omega, by omega⟩

theorem toNat_of_spells {text : Text} {v : ℤ} (h : Spells uint64 text v) :
    ((UInt64.ofNat v.toNat).toNat : ℤ) = v := by
  obtain ⟨_, hlow, hhigh⟩ := h
  have hlow : 0 ≤ v := hlow
  have hhigh : v ≤ 2 ^ 64 - 1 := hhigh
  rw [UInt64.toNat_ofNat_of_lt' (by simp only [UInt64.size]; omega)]
  exact Int.toNat_of_nonneg hlow

/-! ### `collect` -/

/-- Options within the bounds that each of them has. -/
structure CollectorOptions.InBounds (o : CollectorOptions) : Prop where
  queueCapacity : 1 ≤ o.queueCapacity.toNat ∧ o.queueCapacity.toNat ≤ 1000000
  consumerDelay : 0 ≤ o.consumerDelay.toInt ∧ o.consumerDelay.toInt ≤ 10000000
  flushEveryRecords : 1 ≤ o.flushEveryRecords.toNat ∧ o.flushEveryRecords.toNat ≤ 1000000

/-- Options that `collect` runs with: only a consumer without a log is delayed. -/
structure CollectorOptions.Valid (o : CollectorOptions) : Prop extends o.InBounds where
  exclusive : o.outputPath = [] ∨ o.consumerDelay = 0

/-- A command line for these options. -/
def CollectorOptions.arguments (o : CollectorOptions) : List Text :=
  utf8 "--listen" :: o.listenAddress ::
  utf8 "--queue-capacity" :: render o.queueCapacity.toNat ::
  utf8 "--consumer-delay-us" :: render o.consumerDelay.toInt ::
  utf8 "--flush-every" :: render o.flushEveryRecords.toNat ::
    if o.outputPath = [] then [] else [utf8 "--output", o.outputPath]

theorem collector_inBounds {args : List Text} {o : CollectorOptions}
    (h : collectorCommand.parse args {} = .ok (.options o)) : o.InBounds := by
  refine Command.parse_invariant CollectorOptions.InBounds (fun flag hflag => by cases hflag) ?_
    ⟨by decide, by decide, by decide⟩ h
  intro option hoption name value o next ho hset
  simp only [collectorCommand, List.mem_cons, List.not_mem_nil, or_false] at hoption
  rcases hoption with rfl | rfl | rfl | rfl | rfl
  · cases hset
    exact ⟨ho.queueCapacity, ho.consumerDelay, ho.flushEveryRecords⟩
  · dsimp only at hset
    obtain ⟨v, hv, hlow, hhigh, rfl⟩ := setBounded_ok.mp hset
    have hcast := toNat_of_spells hv
    exact ⟨by dsimp only; omega, ho.consumerDelay, ho.flushEveryRecords⟩
  · dsimp only at hset
    obtain ⟨v, hv, hlow, hhigh, rfl⟩ := setBounded_ok.mp hset
    have hcast := toInt_of_spells hv
    exact ⟨ho.queueCapacity, by dsimp only; omega, ho.flushEveryRecords⟩
  · simp only at hset
    split at hset
    · cases hset
    · cases hset
      exact ⟨ho.queueCapacity, ho.consumerDelay, ho.flushEveryRecords⟩
  · dsimp only at hset
    obtain ⟨v, hv, hlow, hhigh, rfl⟩ := setBounded_ok.mp hset
    have hcast := toNat_of_spells hv
    exact ⟨ho.queueCapacity, ho.consumerDelay, by dsimp only; omega⟩

/-- **These arguments set every option**, but for a path that they do not name. -/
theorem collector_arguments {o : CollectorOptions} (h : o.InBounds) (earlier : CollectorOptions)
    (hpath : o.outputPath ≠ [] ∨ earlier.outputPath = []) :
    collectorCommand.parse o.arguments earlier = .ok (.options o) := by
  obtain ⟨hcapacity, hdelay, hflush⟩ := h
  refine (Command.parse_option rfl rfl rfl rfl).trans ?_
  refine (Command.parse_option rfl rfl rfl (setBounded_ok.mpr
    ⟨_, spells_toNat o.queueCapacity, by omega, by omega, rfl⟩)).trans ?_
  refine (Command.parse_option rfl rfl rfl (setBounded_ok.mpr
    ⟨_, spells_toInt o.consumerDelay, by omega, by omega, rfl⟩)).trans ?_
  refine (Command.parse_option rfl rfl rfl (setBounded_ok.mpr
    ⟨_, spells_toNat o.flushEveryRecords, by omega, by omega, rfl⟩)).trans ?_
  simp only [Int.toNat_natCast, UInt64.ofNat_toNat, Int64.ofInt_toInt]
  split
  · rename_i hnone
    obtain hsome | hearlier := hpath
    · exact absurd hnone hsome
    · cases o
      cases hnone
      rw [hearlier]
      rfl
  · rename_i hsome
    exact Command.parse_option rfl rfl rfl (if_neg hsome)

/-- **Valid options** are not refused behind the loop. -/
theorem parseCollector_ok {args : List Text} {o : CollectorOptions} :
    parseCollector args = .ok (.options o) ↔ collectorCommand.parse args {} = .ok (.options o) ∧
      (o.outputPath = [] ∨ ¬0 < o.consumerDelay) := by
  unfold parseCollector
  split
  · rename_i parsed hparsed
    split
    · rename_i hboth
      refine iff_of_false (fun h => by cases h) fun ⟨h, hone⟩ => ?_
      cases hparsed.symm.trans h
      exact hone.elim hboth.1 fun hnot => hnot hboth.2
    · rename_i hnot
      rw [not_and_or, not_not] at hnot
      refine ⟨fun h => ?_, fun ⟨h, _⟩ => ?_⟩
      · cases h
        exact ⟨hparsed, hnot⟩
      · cases hparsed.symm.trans h
        rfl
  · rename_i parsed hother
    exact ⟨fun h => absurd h (hother o), fun ⟨h, _⟩ => absurd h (hother o)⟩

theorem no_delay {o : CollectorOptions} (h : o.InBounds) :
    ¬0 < o.consumerDelay ↔ o.consumerDelay = 0 := by
  have hpos := h.consumerDelay.1
  rw [Int64.lt_iff_toInt_lt, ← Int64.toInt_inj, Int64.toInt_zero]
  omega

/-- **`collect` runs with the options within their bounds**, and with no others: a command line
that is read whole asks for such, and all of these can be asked for, whatever has been asked for
before. With such options neither the queue's constructor nor the writer's interval check fails. -/
theorem collector_options (o : CollectorOptions) :
    ((∃ args, parseCollector args = .ok (.options o)) ↔ o.Valid) ∧
    (o.Valid → (∀ args earlier, collectorCommand.parse args {} = .ok (.options earlier) →
        o.outputPath ≠ [] ∨ earlier.outputPath = [] →
          parseCollector (args ++ o.arguments) = .ok (.options o)) ∧
      (∃ queue : Concurrency.BoundedQueue Telemetry.CollectedEvent,
        Concurrency.BoundedQueue.create o.queueCapacity.toNat = .ok queue) ∧
      o.flushEveryRecords ≠ 0) := by
  have hrendered (h : o.Valid) {args : List Text} {earlier : CollectorOptions}
      (hargs : collectorCommand.parse args {} = .ok (.options earlier))
      (hpath : o.outputPath ≠ [] ∨ earlier.outputPath = []) :
      parseCollector (args ++ o.arguments) = .ok (.options o) := by
    refine parseCollector_ok.mpr ⟨?_, h.exclusive.imp_right (no_delay h.toInBounds).mpr⟩
    rw [Command.parse_append hargs]
    exact collector_arguments h.toInBounds earlier hpath
  refine ⟨⟨fun ⟨args, h⟩ => ?_, fun h => ⟨[] ++ o.arguments, hrendered h rfl (.inr rfl)⟩⟩, fun h =>
    ⟨fun args earlier hargs hpath => hrendered h hargs hpath, ?_, ?_⟩⟩
  · obtain ⟨hparsed, hone⟩ := parseCollector_ok.mp h
    have hbounds := collector_inBounds hparsed
    exact ⟨hbounds, hone.imp_right (no_delay hbounds).mp⟩
  · have hpos := h.queueCapacity.1
    exact ⟨_, dif_neg (by omega)⟩
  · have hpos := h.flushEveryRecords.1
    rintro hzero
    rw [hzero] at hpos
    exact absurd hpos (by decide)

/-! ### `generate` -/

/-- Options that `generate` can be given: whole milliseconds and microseconds within their bounds,
and the rates that it has no option for. -/
structure GeneratorOptions.Given (o : GeneratorOptions) : Prop where
  rates : o.config.rates = {}
  duration : ∃ ms : ℤ, 1 ≤ ms ∧ ms ≤ 3600000 ∧ o.config.duration.toInt = ms * 1000000
  maxJitter : ∃ us : ℤ, 0 ≤ us ∧ us ≤ 3600000000 ∧ o.config.maxJitter.toInt = us * 1000
  connectTimeout : 1 ≤ o.connectTimeout.toInt ∧ o.connectTimeout.toInt ≤ 60000

theorem toInt_million : (1000000 : Int64).toInt = 1000000 := rfl

theorem toInt_thousand : (1000 : Int64).toInt = 1000 := rfl

/-- A number of larger units, in the smaller unit. -/
theorem toInt_scaled {text : Text} {v k : ℤ} {scale : Int64} (h : Spells int64 text v)
    (hscale : scale.toInt = k) (hrange : Signed.InRange (v * k)) :
    (Int64.ofInt v * scale).toInt = v * k := by
  have hv := toInt_of_spells h
  rw [Signed.toInt_mul (by rwa [hv, hscale]), hv, hscale]

namespace GeneratorOptions.Given

variable {o : GeneratorOptions}

-- stated of any value, so that no proof term computes the option's product to compare the others
theorem withDuration (h : o.Given) {duration : Int64}
    (hduration : ∃ ms : ℤ, 1 ≤ ms ∧ ms ≤ 3600000 ∧ duration.toInt = ms * 1000000) :
    GeneratorOptions.Given { o with config := { o.config with duration := duration } } :=
  ⟨h.rates, hduration, h.maxJitter, h.connectTimeout⟩

theorem withMaxJitter (h : o.Given) {maxJitter : Int64}
    (hjitter : ∃ us : ℤ, 0 ≤ us ∧ us ≤ 3600000000 ∧ maxJitter.toInt = us * 1000) :
    GeneratorOptions.Given { o with config := { o.config with maxJitter := maxJitter } } :=
  ⟨h.rates, h.duration, hjitter, h.connectTimeout⟩

end GeneratorOptions.Given

theorem generator_given {args : List Text} {o : GeneratorOptions}
    (h : parseGenerator args = .ok (.options o)) : o.Given := by
  refine Command.parse_invariant GeneratorOptions.Given (fun flag hflag o ho => ?_) ?_
    ⟨rfl, ⟨1000, by decide, by decide, rfl⟩, ⟨0, by decide, by decide, rfl⟩, by decide⟩ h
  · cases List.mem_singleton.mp hflag
    exact ⟨ho.rates, ho.duration, ho.maxJitter, ho.connectTimeout⟩
  intro option hoption name value o next ho hset
  have ⟨hrates, hduration, hjitter, htimeout⟩ := ho
  simp only [generatorCommand, List.mem_cons, List.not_mem_nil, or_false] at hoption
  rcases hoption with rfl | rfl | rfl | rfl | rfl | rfl | rfl | rfl | rfl <;> dsimp only at hset
  · obtain ⟨v, _, rfl⟩ := setInteger_ok.mp hset
    exact ⟨hrates, hduration, hjitter, htimeout⟩
  · obtain ⟨ms, hms, hlow, hhigh, rfl⟩ := setBounded_ok.mp hset
    have hduration := toInt_scaled hms toInt_million ⟨by omega, by omega⟩
    exact ho.withDuration ⟨ms, hlow, hhigh, hduration⟩
  · obtain ⟨us, hus, hlow, hhigh, rfl⟩ := setBounded_ok.mp hset
    have hjitter := toInt_scaled hus toInt_thousand ⟨by omega, by omega⟩
    exact ho.withMaxJitter ⟨us, hlow, hhigh, hjitter⟩
  · obtain ⟨v, _, rfl⟩ := setInteger_ok.mp hset
    exact ⟨hrates, hduration, hjitter, htimeout⟩
  · obtain ⟨p, _, rfl⟩ := setProbability_ok.mp hset
    exact ⟨hrates, hduration, hjitter, htimeout⟩
  · obtain ⟨p, _, rfl⟩ := setProbability_ok.mp hset
    exact ⟨hrates, hduration, hjitter, htimeout⟩
  · obtain ⟨p, _, rfl⟩ := setProbability_ok.mp hset
    exact ⟨hrates, hduration, hjitter, htimeout⟩
  · cases hset
    exact ⟨hrates, hduration, hjitter, htimeout⟩
  · obtain ⟨ms, hms, hlow, hhigh, rfl⟩ := setBounded_ok.mp hset
    have hcast := toInt_of_spells hms
    exact ⟨hrates, hduration, hjitter, by dsimp only; omega⟩

/-- A command line for these options. -/
def GeneratorOptions.arguments (o : GeneratorOptions) : List Text :=
  utf8 "--seed" :: render o.config.seed.toNat ::
  utf8 "--duration-ms" :: render (o.config.duration.toInt / 1000000) ::
  utf8 "--jitter-us" :: render (o.config.maxJitter.toInt / 1000) ::
  utf8 "--clock-drift-ppm" :: render o.config.clockDriftPpm.toInt ::
  utf8 "--drop-per-million" :: render o.config.faults.dropPerMillion.toNat ::
  utf8 "--duplicate-per-million" :: render o.config.faults.duplicatePerMillion.toNat ::
  utf8 "--reorder-per-million" :: render o.config.faults.reorderPerMillion.toNat ::
  utf8 "--target" :: o.target ::
  utf8 "--connect-timeout-ms" :: render o.connectTimeout.toInt ::
    if o.printEvents then [utf8 "--print-events"] else []

/-- What is rendered of a whole number of larger units. -/
theorem scaled_back {x scale : Int64} {v k : ℤ} (hscale : scale.toInt = k) (hpos : 0 < k)
    (hlow : 0 ≤ v) (hrange : v * k < 2 ^ 63) (hx : x.toInt = v * k) :
    Spells int64 (render (x.toInt / k)) v ∧ Int64.ofInt v * scale = x := by
  have hle : v ≤ v * k := le_mul_of_one_le_right hlow hpos
  have hspells : Spells int64 (render (x.toInt / k)) v := by
    rw [hx, Int.mul_ediv_cancel _ (Int.ne_of_gt hpos)]
    exact spells_render ⟨show (-2 ^ 63 : ℤ) ≤ _ by omega, show _ ≤ (2 ^ 63 - 1 : ℤ) by omega⟩
      fun _ => rfl
  refine ⟨hspells, Int64.toInt_inj.mp ?_⟩
  rw [toInt_scaled hspells hscale ⟨by omega, by omega⟩, hx]

/-- **These arguments set every option.** -/
theorem generator_arguments {o : GeneratorOptions} (h : o.Given) :
    parseGenerator o.arguments = .ok (.options o) := by
  obtain ⟨hrates, ⟨ms, hmsLow, hmsHigh, hduration⟩, ⟨us, husLow, husHigh, hjitter⟩, htimeout⟩ := h
  obtain ⟨hms, hdurationBack⟩ :=
    scaled_back toInt_million (by decide) (by omega) (by omega) hduration
  obtain ⟨hus, hjitterBack⟩ := scaled_back toInt_thousand (by decide) husLow (by omega) hjitter
  refine (Command.parse_option rfl rfl rfl
    (setInteger_ok.mpr ⟨_, spells_toNat o.config.seed, rfl⟩)).trans ?_
  refine (Command.parse_option rfl rfl rfl
    (setBounded_ok.mpr ⟨_, hms, hmsLow, hmsHigh, rfl⟩)).trans ?_
  refine (Command.parse_option rfl rfl rfl
    (setBounded_ok.mpr ⟨_, hus, husLow, husHigh, rfl⟩)).trans ?_
  refine (Command.parse_option rfl rfl rfl
    (setInteger_ok.mpr ⟨_, spells_toInt o.config.clockDriftPpm, rfl⟩)).trans ?_
  refine (Command.parse_option rfl rfl rfl
    (setProbability_ok.mpr ⟨_, spells_probability _, rfl⟩)).trans ?_
  refine (Command.parse_option rfl rfl rfl
    (setProbability_ok.mpr ⟨_, spells_probability _, rfl⟩)).trans ?_
  refine (Command.parse_option rfl rfl rfl
    (setProbability_ok.mpr ⟨_, spells_probability _, rfl⟩)).trans ?_
  refine (Command.parse_option rfl rfl rfl rfl).trans ?_
  refine (Command.parse_option rfl rfl rfl (setBounded_ok.mpr
    ⟨_, spells_toInt o.connectTimeout, htimeout.1, htimeout.2, rfl⟩)).trans ?_
  simp only [Int.toNat_natCast, UInt64.ofNat_toNat, Int64.ofInt_toInt, hdurationBack, hjitterBack]
  obtain ⟨⟨seed, duration, maxJitter, drift, rates, faults⟩, printEvents, target, timeout⟩ := o
  cases hrates
  cases printEvents with
  | false => rfl
  | true => rfl

/-- The default rates fit any duration that can be given. -/
theorem default_rates_fit {durationNs : Int64} (hpos : 0 < durationNs.toInt)
    (hle : durationNs.toInt ≤ 3600000000000) :
    (({} : SensorRates).all.foldlM addRate 0 >>= fun combinedRate =>
      if kMaxGeneratedEvents <
          combinedRate * ((durationNs / kNanosecondsPerSecond).toUInt64 + 1) then
        (.error "configuration would generate more than 2000000 events" : Except String Unit)
      else .ok ()) = .ok () := by
  have hsum : ({} : SensorRates).all.foldlM addRate 0 = .ok 143 := by decide
  rw [hsum]
  refine if_neg ?_
  have hseconds := toNat_seconds (Int.le_of_lt hpos)
  have hrate : (143 : UInt64).toNat = 143 := rfl
  have hone : (1 : UInt64).toNat = 1 := rfl
  have hlimit : kMaxGeneratedEvents.toNat = 2000000 := rfl
  rw [UInt64.lt_iff_toNat_lt, UInt64.toNat_mul, UInt64.toNat_add, hseconds, hrate, hone, hlimit]
  have hfew : durationNs.toInt.toNat / 1000000000 ≤ 3600 := by omega
  rw [Nat.mod_eq_of_lt (show _ < 2 ^ 64 by omega), Nat.mod_eq_of_lt (by omega)]
  omega

/-- **`generate` can be given whole milliseconds and microseconds** within its bounds, any seed,
drift, probabilities and target, and nothing else; all of it can be asked for. Of what is asked for
the generator's constructor refuses a drift or a probability that is out of its range, with the
message for the first of them, and never a duration, a jitter or the number of events. -/
theorem generator_options (o : GeneratorOptions) :
    ((∃ args, parseGenerator args = .ok (.options o)) ↔ o.Given) ∧
    (o.Given → validateConfig o.config =
      if o.config.clockDriftPpm < -1000000 ∨ 1000000 < o.config.clockDriftPpm then
        .error "clock drift must be between -1000000 and 1000000 ppm"
      else do
        validateProbability o.config.faults.dropPerMillion "drop probability"
        validateProbability o.config.faults.duplicatePerMillion "duplicate probability"
        validateProbability o.config.faults.reorderPerMillion "reorder probability") := by
  refine ⟨⟨fun ⟨_, h⟩ => generator_given h, fun h => ⟨_, generator_arguments h⟩⟩, fun h => ?_⟩
  obtain ⟨hrates, ⟨ms, hmsLow, hmsHigh, hduration⟩, ⟨us, husLow, husHigh, hjitter⟩, _⟩ := h
  have hmax : kMaxDurationNs.toInt = 3600000000000 := rfl
  have hpos : 0 < o.config.duration.toInt := by omega
  have hfit := default_rates_fit hpos (by omega)
  rw [validateConfig, if_neg, if_neg]
  · split
    · rfl
    · rw [hrates, hfit]
      cases validateProbability o.config.faults.dropPerMillion "drop probability" with
      | error message => rfl
      | ok _ =>
        cases validateProbability o.config.faults.duplicatePerMillion "duplicate probability" with
        | error message => rfl
        | ok _ =>
          cases validateProbability o.config.faults.reorderPerMillion "reorder probability" <;> rfl
  · rw [Int64.lt_iff_toInt_lt, Int64.lt_iff_toInt_lt, Int64.toInt_zero, hmax]
    omega
  · rw [Int64.le_iff_toInt_le, Int64.lt_iff_toInt_lt, Int64.toInt_zero, hmax]
    omega

end TraceForge.App
