/-
  The stages of the padding (`TrafficConfig::validate`, `ResolvedShaperConfig::resolve` and
  `TrafficShaper::resolve_padding` in `src/shaper/mod.rs`).

  A stage says how the packets up to its end are padded.  The stages are configured in any order; the
  shaper sorts them once by their ends, and with every packet it walks on in the sorted stages from where
  it stopped at the packet before.

  1. **Program** — the config with its checks and their messages, and `resolve`, whose UNSTABLE sort may
     leave equal ends in any order.

  2. **Specification** — `TrafficConfig.Selects` says over the config, as it was written, what settings a
     packet has: those of the stage that ends first among those that have not ended yet, or the global
     ones.  `SealedFrame.PaddedBy` is what the settings ask of a frame.

  3. **The crux (`skipStages_resume`)** — packet numbers only grow, so the stages that an earlier search
     has left behind would be left behind again: walking on from there is searching from the start.

  The theorem is `frames_padded_by_stage`.  For the first packet there is nothing to walk on from; a stage
  that ends at 0, or where the stage before it ends, is never the stage of a packet.
-/
import Httproxy.Lib.Vec
import Httproxy.Shaper.Traffic

namespace Httproxy.Shaper

open Crypto Machine Vec

/-! ## Program -/

structure PaddingConfig where
  paddingThreshold : Nat
  paddingRange : Nat × Nat
  deriving DecidableEq, Repr

structure StageConfig where
  count : Option Nat
  countRange : Option (Nat × Nat)
  paddingThreshold : Nat
  paddingRange : Nat × Nat
  deriving DecidableEq, Repr

structure TrafficConfig where
  global : PaddingConfig
  stages : List StageConfig
  encodingType : EncodingType

/-- The message about the range of `field`. -/
def rangeMessage (field : String) (range : Nat × Nat) : String :=
  "traffic_shaping." ++ field ++ ".padding_range low (" ++ toString range.1 ++ ") > high (" ++
    toString range.2 ++ ")"

/-- The loop of `validate`, at the stage `i`. -/
def validateStages : Nat → List StageConfig → Except String Unit
  | _, [] => .ok ()
  | i, stage :: later =>
    if stage.paddingRange.1 > stage.paddingRange.2 then
      .error (rangeMessage ("stages[" ++ toString i ++ "]") stage.paddingRange)
    else validateStages (i + 1) later

def TrafficConfig.validate (config : TrafficConfig) : Except String Unit :=
  if config.global.paddingRange.1 > config.global.paddingRange.2 then
    .error (rangeMessage "global" config.global.paddingRange)
  else validateStages 0 config.stages

/-- The end of a stage: `count`, or the upper end of `count_range`, or 0. -/
def StageConfig.endCount (stage : StageConfig) : Nat :=
  (stage.count.or (stage.countRange.map Prod.snd)).getD 0

/-- The ranges of a config that `validate` accepts. -/
structure TrafficConfig.Ordered (config : TrafficConfig) : Prop where
  global : config.global.paddingRange.1 ≤ config.global.paddingRange.2
  stages : ∀ stage ∈ config.stages, stage.paddingRange.1 ≤ stage.paddingRange.2

theorem validateStages_ok {i : Nat} {stages : List StageConfig} (h : validateStages i stages = .ok ()) :
    ∀ stage ∈ stages, stage.paddingRange.1 ≤ stage.paddingRange.2 := by
  induction stages generalizing i with
  | nil => exact fun _ hnil => nomatch hnil
  | cons stage later ih =>
    rw [validateStages] at h
    split at h
    · cases h
    · rename_i hle
      exact List.forall_mem_cons.2 ⟨Nat.le_of_not_lt hle, ih h⟩

theorem TrafficConfig.ordered {config : TrafficConfig} (h : config.validate = .ok ()) :
    config.Ordered := by
  rw [TrafficConfig.validate] at h
  split at h
  · cases h
  · rename_i hle
    exact ⟨Nat.le_of_not_lt hle, validateStages_ok h⟩

def StageConfig.resolve (stage : StageConfig) (h : stage.paddingRange.1 ≤ stage.paddingRange.2) :
    ResolvedStage :=
  ⟨stage.endCount, stage.paddingThreshold, ⟨stage.paddingRange.1, stage.paddingRange.2, h⟩⟩

/-- The stages as `resolve` collects them, in the order of the config. -/
def TrafficConfig.collected (config : TrafficConfig) (h : config.validate = .ok ()) :
    List ResolvedStage :=
  config.stages.pmap StageConfig.resolve (TrafficConfig.ordered h).stages

/-- `ResolvedShaperConfig::resolve` of a config that was accepted; `sorted` is what the sort makes of the
    stages. -/
def ResolvedShaperConfig.resolve (config : TrafficConfig) (h : config.validate = .ok ())
    (sorted : SortedBy ResolvedStage.endCount (config.collected h)) : ResolvedShaperConfig where
  stages := sorted.list
  globalThreshold := config.global.paddingThreshold
  globalRange := ⟨config.global.paddingRange.1, config.global.paddingRange.2,
    (TrafficConfig.ordered h).global⟩
  encoding := config.encodingType

/-! ## Specification -/

/-- The settings for the packet `n`. -/
def TrafficConfig.Selects (config : TrafficConfig) (n : Nat) (settings : PaddingConfig) : Prop :=
  (∃ stage ∈ config.stages, n ≤ stage.endCount ∧
    (∀ other ∈ config.stages, n ≤ other.endCount → stage.endCount ≤ other.endCount) ∧
    settings = ⟨stage.paddingThreshold, stage.paddingRange⟩) ∨
  (∀ stage ∈ config.stages, stage.endCount < n) ∧ settings = config.global

/-- What the settings ask of a frame. -/
def SealedFrame.PaddedBy (key : LessSafeKey) (base122 : Base122Fast) (encoding : EncodingType)
    (settings : PaddingConfig) (f : SealedFrame) : Prop :=
  ∃ w padding, settings.paddingRange.1 ≤ w ∧ w ≤ settings.paddingRange.2 ∧
    padding = (if f.data.length ≥ settings.paddingThreshold then 0
      else min w (sealThresholdOf encoding - f.data.length)) ∧
    Carries key base122 encoding f.bytes f.seq f.data padding

/-- With distinct ends the settings of a packet are unique. -/
theorem TrafficConfig.Selects.unique {config : TrafficConfig} {n : Nat} {a b : PaddingConfig}
    (hdistinct : (config.stages.map StageConfig.endCount).Nodup) (ha : config.Selects n a)
    (hb : config.Selects n b) : b = a := by
  obtain ⟨stage, hstage, hn, hleast, rfl⟩ | ⟨hnone, rfl⟩ := ha
  · obtain ⟨stage', hstage', hn', hleast', rfl⟩ | ⟨hnone', rfl⟩ := hb
    · have hends := Nat.le_antisymm (hleast' stage hstage hn) (hleast stage' hstage' hn')
      rw [List.inj_on_of_nodup_map hdistinct hstage' hstage hends]
    · exact absurd (hnone' stage hstage) (Nat.not_lt.2 hn)
  · obtain ⟨stage', hstage', hn', -, rfl⟩ | ⟨-, rfl⟩ := hb
    · exact absurd (hnone stage' hstage') (Nat.not_lt.2 hn')
    · rfl

/-! ## The search -/

/-- The search finds the first stage that has not ended. -/
theorem getElem?_skipStages (n : Nat) : ∀ (stages : List ResolvedStage) (si : Nat),
    si ≤ skipStages n stages si ∧
      stages[skipStages n stages si - si]? = stages.find? fun stage => decide (n ≤ stage.endCount) := by
  intro stages
  induction stages with
  | nil => exact fun si => ⟨Nat.le_refl si, rfl⟩
  | cons stage later ih =>
    intro si
    rw [skipStages]
    split
    · rename_i hended
      obtain ⟨hle, hget⟩ := ih (si + 1)
      refine ⟨by omega, ?_⟩
      rw [List.find?_cons_of_neg (by simpa using hended), ← hget,
        show skipStages n later (si + 1) - si = skipStages n later (si + 1) - (si + 1) + 1 by omega,
        List.getElem?_cons_succ]
    · rename_i hopen
      refine ⟨Nat.le_refl si, ?_⟩
      rw [List.find?_cons_of_pos (by simpa using hopen), Nat.sub_self, List.getElem?_cons_zero]

/-- **Walking on is searching from the start.** -/
theorem skipStages_resume {m n : Nat} (h : m ≤ n) : ∀ (stages : List ResolvedStage) (si : Nat),
    skipStages n (stages.drop (skipStages m stages si - si)) (skipStages m stages si) =
      skipStages n stages si := by
  intro stages
  induction stages with
  | nil =>
    intro si
    rw [skipStages, List.drop_nil]
  | cons stage later ih =>
    intro si
    by_cases hended : m > stage.endCount
    · have hle := (getElem?_skipStages m later (si + 1)).1
      rw [skipStages, if_pos hended, skipStages, if_pos (by omega), ← ih (si + 1),
        show skipStages m later (si + 1) - si = skipStages m later (si + 1) - (si + 1) + 1 by omega,
        List.drop_succ_cons]
    · rw [skipStages, if_neg hended, Nat.sub_self, List.drop_zero]

/-- The settings of a stage, or the global ones. -/
def ResolvedShaperConfig.pick (config : ResolvedShaperConfig) : Option ResolvedStage → Nat × PaddingRange
  | some stage => (stage.paddingThreshold, stage.paddingRange)
  | none => (config.globalThreshold, config.globalRange)

/-- The settings that a resolved config has for the packet `n`: a fresh search. -/
def ResolvedShaperConfig.settingsAt (config : ResolvedShaperConfig) (n : Nat) : Nat × PaddingRange :=
  config.pick (config.stages.find? fun stage => decide (n ≤ stage.endCount))

/-- The settings as they are written in a config. -/
def settingsOf (settings : Nat × PaddingRange) : PaddingConfig :=
  ⟨settings.1, (settings.2.low, settings.2.high)⟩

/-- **The first of the sorted stages that has not ended is the one to select.** -/
theorem selects_settingsAt {config : TrafficConfig} (h : config.validate = .ok ())
    (sorted : SortedBy ResolvedStage.endCount (config.collected h)) (n : Nat) :
    config.Selects n (settingsOf ((ResolvedShaperConfig.resolve config h sorted).settingsAt n)) := by
  have hmem : ∀ stage : StageConfig, ∀ hs : stage ∈ config.stages,
      stage.resolve ((TrafficConfig.ordered h).stages stage hs) ∈ config.collected h :=
    fun stage hs => List.mem_pmap.2 ⟨stage, hs, rfl⟩
  unfold ResolvedShaperConfig.settingsAt
  show config.Selects n (settingsOf (ResolvedShaperConfig.pick _ (sorted.list.find? _)))
  cases hfind : sorted.list.find? fun stage => decide (n ≤ stage.endCount) with
  | some stage =>
    obtain ⟨hin, hn, hleast⟩ := sorted.find?_least hfind
    obtain ⟨origin, horigin, rfl⟩ := List.mem_pmap.1 hin
    exact .inl ⟨origin, horigin, hn, fun other hother hreach => hleast _ (hmem other hother) hreach, rfl⟩
  | none =>
    exact .inr ⟨fun stage hstage => sorted.find?_none hfind _ (hmem stage hstage), rfl⟩

/-! ## Every run -/

/-- What never changes in a shaper of this config. -/
structure ResolvedShaperConfig.Runs (config : ResolvedShaperConfig) (s : TrafficShaper) : Prop where
  stages : s.stages = config.stages
  threshold : s.globalThreshold = config.globalThreshold
  range : s.globalRange = config.globalRange
  encoding : s.encoding = config.encoding
  sealed : s.sealThreshold = sealThresholdOf config.encoding
  /-- The cached index is that of a fresh search. -/
  cached : s.stageIdx = skipStages s.packetCount config.stages 0

/-- The frame of the packet `n`, under a resolved config. -/
def ResolvedShaperConfig.Pads (key : LessSafeKey) (base122 : Base122Fast) (config : ResolvedShaperConfig)
    (n : Nat) (f : SealedFrame) : Prop :=
  ∃ draw, Carries key base122 config.encoding f.bytes f.seq f.data
    (resolveFramePadding draw f.data.length (config.settingsAt n).1 (config.settingsAt n).2
      (sealThresholdOf config.encoding))

section Run
variable {key : LessSafeKey} {base122 : Base122Fast} {config : ResolvedShaperConfig} {s : TrafficShaper}

theorem ResolvedShaperConfig.Runs.settings (h : config.Runs s) (si : Nat) :
    s.settings si = config.pick config.stages[si]? := by
  unfold TrafficShaper.settings
  rw [h.stages, h.threshold, h.range]
  cases config.stages[si]? with
  | some stage => rfl
  | none => rfl

/-- The next packet: the search goes on from the cached index, and finds what a fresh one finds. -/
theorem ResolvedShaperConfig.Runs.resolved (h : config.Runs s) (draw : Nat) :
    config.Runs (s.resolved draw).1 ∧ (s.resolved draw).1.packetCount = s.packetCount + 1 ∧
      (s.resolved draw).2 = resolveFramePadding draw s.frameData.length
        (config.settingsAt (s.packetCount + 1)).1 (config.settingsAt (s.packetCount + 1)).2
        (sealThresholdOf config.encoding) := by
  have hfresh : skipStages (s.packetCount + 1) (s.stages.drop s.stageIdx) s.stageIdx =
      skipStages (s.packetCount + 1) config.stages 0 := by
    rw [h.stages, h.cached]
    exact skipStages_resume (Nat.le_succ _) config.stages 0
  have hsettings : s.settings (skipStages (s.packetCount + 1) config.stages 0) =
      config.settingsAt (s.packetCount + 1) := by
    have hget := (getElem?_skipStages (s.packetCount + 1) config.stages 0).2
    rw [Nat.sub_zero] at hget
    rw [h.settings, hget]
    rfl
  refine ⟨⟨h.stages, h.threshold, h.range, h.encoding, h.sealed, hfresh⟩, rfl, ?_⟩
  show resolveFramePadding draw s.frameData.length
    (s.settings (skipStages (s.packetCount + 1) (s.stages.drop s.stageIdx) s.stageIdx)).1
    (s.settings (skipStages (s.packetCount + 1) (s.stages.drop s.stageIdx) s.stageIdx)).2
    s.sealThreshold = _
  rw [hfresh, hsettings, h.sealed]

/-- A turn seals the next packet and pads it, or it seals nothing and counts nothing. -/
theorem turn_pads (hkey : key.NeverFails) (h : config.Runs s) (io : Io) (out : Bytes) :
    config.Runs (turn key base122 io s out).shaper ∧
      (((turn key base122 io s out).frames out = [] ∧
          (turn key base122 io s out).shaper.packetCount = s.packetCount) ∨
        ∃ f, (turn key base122 io s out).frames out = [f] ∧
          (turn key base122 io s out).shaper.packetCount = s.packetCount + 1 ∧
          config.Pads key base122 (s.packetCount + 1) f) := by
  obtain ⟨timerArmed, cursor, read, hturn⟩ | ⟨outcome, rawBuf, timerArmed, cursor, read, hno, hturn⟩ :=
    turn_shape key base122 io s out
  · have hruns : config.Runs { s with timerArmed, cursor } := { h with }
    have hwf : s.sealThreshold = sealThresholdOf s.encoding := by rw [h.sealed, h.encoding]
    obtain ⟨f, encBuf, jsonBuf, hseal, hf⟩ :=
      sealInto_resolved hkey base122 io.draw (s := { s with timerArmed, cursor }) hwf out
    obtain ⟨hnext, hcount, hpadding⟩ := hruns.resolved io.draw.padding
    rw [hturn, sealTurn, hseal]
    refine ⟨{ hnext with }, .inr ⟨⟨s.seq, s.frameData, f⟩, ?_, hcount, io.draw.padding, ?_⟩⟩
    · show [SealedFrame.mk s.seq s.frameData ((out ++ f).drop out.length)] = _
      rw [List.drop_left]
    · rw [hpadding] at hf
      exact h.encoding ▸ hf
  · rw [hturn]
    exact ⟨{ h with }, .inl ⟨Turned.frames_nil hno out, rfl⟩⟩

/-- What holds after any number of turns and calls. -/
structure Polling.Staged (key : LessSafeKey) (base122 : Base122Fast) (config : ResolvedShaperConfig)
    (p : Polling) : Prop where
  runs : config.Runs p.shaper
  counted : p.shaper.packetCount = p.frames.length
  padded : ∀ i f, p.frames[i]? = some f → config.Pads key base122 (i + 1) f

theorem staged_step (hkey : key.NeverFails) {p p' : Polling} {e : Event}
    (h : p.Staged key base122 config) (hstep : step key base122 p e = some p') :
    p'.Staged key base122 config := by
  cases e with
  | call out =>
    simp only [step, Option.ite_none_right_eq_some, Option.some.injEq] at hstep
    obtain ⟨-, rfl⟩ := hstep
    exact { h with }
  | turn io =>
    obtain ⟨out, -, rfl⟩ := Option.map_eq_some_iff.mp hstep
    obtain ⟨hruns, ⟨hframes, hcount⟩ | ⟨f, hframes, hcount, hpads⟩⟩ :=
      @turn_pads key base122 _ _ hkey h.runs io out
    · refine ⟨hruns, ?_, ?_⟩
      · dsimp only
        rw [hcount, hframes, List.append_nil, h.counted]
      · dsimp only
        rw [hframes, List.append_nil]
        exact h.padded
    · refine ⟨hruns, ?_, fun i g hg => ?_⟩
      · dsimp only
        rw [hcount, hframes, List.length_append, h.counted]
        rfl
      · dsimp only at hg
        rw [hframes, List.getElem?_append] at hg
        split at hg
        · exact h.padded i g hg
        · -- the new frame is the packet behind all the others
          rename_i hnew
          obtain ⟨hlt, rfl⟩ := List.getElem?_eq_some_iff.1 hg
          rw [List.length_singleton] at hlt
          obtain rfl : i = p.frames.length := by omega
          rw [List.getElem_singleton, ← h.counted]
          exact hpads

theorem staged_run (hkey : key.NeverFails) {startSeq : UInt64} {random : Nat} {events : List Event}
    {p : Polling}
    (h : run (step key base122) (.new (.withSeq config startSeq random)) events = some p) :
    p.Staged key base122 config := by
  have hstart : skipStages 0 config.stages 0 = 0 := by
    cases config.stages with
    | nil => rfl
    | cons stage later => rfl
  have hnew : (Polling.new (.withSeq config startSeq random)).Staged key base122 config :=
    ⟨⟨rfl, rfl, rfl, rfl, rfl, hstart.symm⟩, rfl, fun _ _ hf => nomatch hf⟩
  exact run_invariant (fun _ _ _ hp hstep => staged_step hkey hp hstep) events _ _ hnew h

end Run

/-- What is drawn lies in the range. -/
theorem PaddingRange.random_mem (range : PaddingRange) (draw : Nat) :
    range.low ≤ range.random draw ∧ range.random draw ≤ range.high := by
  have hlt : draw % (range.high - range.low + 1) < range.high - range.low + 1 :=
    Nat.mod_lt draw (Nat.succ_pos _)
  have hordered := range.ordered
  unfold PaddingRange.random
  omega

theorem ResolvedShaperConfig.Pads.paddedBy {key : LessSafeKey} {base122 : Base122Fast}
    {config : ResolvedShaperConfig} {n : Nat} {f : SealedFrame} (h : config.Pads key base122 n f) :
    f.PaddedBy key base122 config.encoding (settingsOf (config.settingsAt n)) := by
  obtain ⟨draw, hf⟩ := h
  obtain ⟨hlow, hhigh⟩ := (config.settingsAt n).2.random_mem draw
  refine ⟨_, _, hlow, hhigh, ?_, hf⟩
  unfold resolveFramePadding
  by_cases hlong : f.data.length ≥ (config.settingsAt n).1
  · rw [if_neg (Nat.not_lt.2 hlong)]
    exact (if_pos hlong).symm
  · rw [if_pos (Nat.lt_of_not_le hlong)]
    exact (if_neg hlong).symm

/-- **Main result.**  The `n`-th frame is padded by the one stage that ends first among those that have not
ended before it, and by the global settings behind the last stage; and the cached index is always that of
a search from the start. -/
theorem frames_padded_by_stage (key : LessSafeKey) (hkey : key.NeverFails) (base122 : Base122Fast)
    (config : TrafficConfig) (hvalid : config.validate = .ok ())
    (hdistinct : (config.stages.map StageConfig.endCount).Nodup)
    (sorted : SortedBy ResolvedStage.endCount (config.collected hvalid))
    (startSeq : UInt64) (random : Nat) (events : List Event) (p : Polling)
    (h : run (step key base122)
      (.new (.withSeq (.resolve config hvalid sorted) startSeq random)) events = some p) :
    (∀ i f, p.frames[i]? = some f →
      ∃ settings, config.Selects (i + 1) settings ∧
        (∀ other, config.Selects (i + 1) other → other = settings) ∧
        f.PaddedBy key base122 config.encodingType settings) ∧
    p.shaper.stages = sorted.list ∧
    p.shaper.stageIdx = skipStages p.shaper.packetCount p.shaper.stages 0 := by
  have hstaged := staged_run hkey h
  refine ⟨fun i f hf => ?_, hstaged.runs.stages, ?_⟩
  · have hselects := selects_settingsAt hvalid sorted (i + 1)
    exact ⟨_, hselects, fun other hother => hselects.unique hdistinct hother,
      (hstaged.padded i f hf).paddedBy⟩
  · rw [hstaged.runs.stages]
    exact hstaged.runs.cached

/-- Packet 1 has a stage, packets 2 and 3 have another one, which is configured first. -/
def demoTraffic : TrafficConfig :=
  ⟨⟨10, (0, 0)⟩, [⟨none, some (2, 3), 10, (2, 2)⟩, ⟨some 1, none, 10, (1, 1)⟩], .binary⟩

def demoSorted : SortedBy ResolvedStage.endCount (demoTraffic.collected rfl) :=
  ⟨(demoTraffic.collected rfl).reverse, List.reverse_perm _, by decide⟩

theorem frames_padded_by_stage_demo :
    ∃ p, run (step zeroKey publishedBase122)
        (.new (.withSeq (.resolve demoTraffic rfl demoSorted) 7 0)) demoEvents = some p ∧
      p.frames.length = 2 ∧ p.shaper.stageIdx = 1 ∧
      ∀ i f, p.frames[i]? = some f → ∃ settings, demoTraffic.Selects (i + 1) settings ∧
        (∀ other, demoTraffic.Selects (i + 1) other → other = settings) ∧
        f.PaddedBy zeroKey publishedBase122 .binary settings := by
  refine ⟨_, rfl, rfl, rfl, ?_⟩
  exact (frames_padded_by_stage zeroKey (fun _ _ h => nomatch h) publishedBase122 demoTraffic rfl
    (by decide) demoSorted 7 0 demoEvents _ rfl).1

end Httproxy.Shaper
