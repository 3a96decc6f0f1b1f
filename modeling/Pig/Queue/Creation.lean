import Pig.Queue.Fifo
import Pig.Settings.Initialize

namespace Pig.Queue

open Go Settings

section

variable (runtime : Runtime) (pow : ℚ → ℚ) (Packet : Type)

def outboundQueue (size : Int) (wred : WredConfig) : Except Panic (FIFO (Option Packet)) := do
  let outbound ← newFIFO runtime none size
  if 0 < wred.maxDropProbability then
    outbound.withWRED pow wred.weightFactor wred.maxDropProbability
      wred.minThreshold wred.maxThreshold
  else .ok outbound

structure Queues where
  outbound : FIFO (Option Packet)
  inbound : List (Channel (Option Packet))

def setupQueues (adapterConfig : AdapterConfig) (config : TunnelConfig) :
    Except Panic (Queues Packet) := do
  let queueSize :=
    if adapterConfig.queueSize ≤ 0 then defaultQueueSize
    else adapterConfig.queueSize
  let outbound ← outboundQueue runtime pow Packet queueSize config.wred
  let inbound ← makeChan runtime (Option Packet) queueSize
  .ok { outbound := outbound, inbound := [inbound] }

def newClientTunnel (adapterCfg : AdapterConfig) (config : TunnelConfig) : Except Panic
  (FIFO (Option Packet)) := outboundQueue runtime pow Packet adapterCfg.queueSize config.wred

def processInbound (count : Nat) (adapterCfg : AdapterConfig) : Except Panic
  (List (Channel (Option Packet))) := (List.range count).mapM fun _ =>
    makeChan runtime (Option Packet) adapterCfg.queueSize

def createQueues (count : Nat) (c : Config) (tunnel : TunnelConfig) :
    Except Panic (Queues Packet) :=
  match Config.adapterForTunnel c.adapter tunnel with
  | none => .error .nilAdapter
  | some adapter =>
    if tunnel.direction = .listen then do
      let inbound ← processInbound runtime Packet count adapter
      let outbound ← newClientTunnel runtime pow Packet adapter tunnel
      .ok { outbound := outbound, inbound := inbound }
    else setupQueues runtime pow Packet adapter tunnel

def Runs (c : Config) (tunnel : TunnelConfig) : Prop := ∀ count, ∃ queues,
    createQueues runtime pow Packet count c tunnel = .ok queues

end

def WredFits (size : Int) (wred : WredConfig) : Prop := 0 < wred.maxDropProbability →
    Acceptable size wred.weightFactor wred.maxDropProbability wred.maxThreshold

section

variable {runtime : Runtime} {pow : ℚ → ℚ} {Packet : Type}
  {adapter : AdapterConfig} {tunnel : TunnelConfig}

theorem exists_outboundQueue_iff {size : Int} {wred : WredConfig} :
    (∃ outbound, outboundQueue runtime pow Packet size wred = .ok outbound) ↔
      (0 ≤ size ∧ size ≤ runtime.sliceLimit) ∧ WredFits size wred := by
  constructor
  · rintro ⟨outbound, houtbound⟩
    obtain ⟨made, hmade, houtbound⟩ := bind_eq_ok.1 houtbound
    refine ⟨exists_newFIFO_iff.1 ⟨made, hmade⟩, fun hdrop => ?_⟩
    rw [if_pos hdrop] at houtbound
    have hacceptable := exists_withWRED_iff.1 ⟨outbound, houtbound⟩
    rwa [length_newFIFO hmade] at hacceptable
  · rintro ⟨hsize, hfits⟩
    obtain ⟨made, hmade⟩ := exists_newFIFO_iff.2 hsize
    rw [outboundQueue, hmade, ok_bind]
    split
    · rename_i hdrop
      have hacceptable := hfits hdrop
      rw [← length_newFIFO hmade] at hacceptable
      exact exists_withWRED_iff.2 hacceptable
    · exact ⟨made, rfl⟩

theorem exists_processInbound_iff : (∀ count, ∃ inbound, processInbound runtime Packet count adapter
      = .ok inbound) ↔ 0 ≤ adapter.queueSize ∧ adapter.queueSize ≤ runtime.chanLimit := by
  rw [← exists_makeChan_iff (Option Packet)]
  constructor
  · intro hall
    obtain ⟨inbound, hinbound⟩ := hall 1
    rw [processInbound, mapM_eq_ok, List.range_one, List.forall₂_cons_left_iff] at hinbound
    obtain ⟨channel, -, hchannel, -⟩ := hinbound
    exact ⟨channel, hchannel⟩
  · rintro ⟨channel, hchannel⟩ count
    refine ⟨(List.range count).map fun _ => channel, mapM_eq_ok.2 ?_⟩
    rw [List.forall₂_map_right_iff, List.forall₂_same]
    exact fun _ _ => hchannel

theorem exists_both_iff {First Second Result : Type} {first : Except Panic First}
    {second : Except Panic Second} {pair : First → Second → Result} :
    (∃ result, (do
        let x ← first
        let y ← second
        .ok (pair x y)) = .ok result) ↔
      (∃ x, first = .ok x) ∧ ∃ y, second = .ok y := by
  constructor
  · rintro ⟨result, hresult⟩
    obtain ⟨x, hx, hresult⟩ := bind_eq_ok.1 hresult
    obtain ⟨y, hy, -⟩ := bind_eq_ok.1 hresult
    exact ⟨⟨x, hx⟩, y, hy⟩
  · rintro ⟨⟨x, hx⟩, y, hy⟩
    exact ⟨pair x y, bind_eq_ok.2 ⟨x, hx, bind_eq_ok.2 ⟨y, hy, rfl⟩⟩⟩

theorem exists_setupQueues_iff :
    (∃ queues, setupQueues runtime pow Packet adapter tunnel = .ok queues) ↔
      adapter.queueSize ≤ runtime.sliceLimit ∧ adapter.queueSize ≤ runtime.chanLimit ∧
        WredFits (if adapter.queueSize ≤ 0 then defaultQueueSize
          else adapter.queueSize) tunnel.wred := by
  have hslice := runtime.le_sliceLimit
  have hchan := runtime.le_chanLimit
  have hdefault : defaultQueueSize = 256 := rfl
  rw [setupQueues, exists_both_iff, exists_outboundQueue_iff, exists_makeChan_iff]
  split
  · have hle : ∀ limit : Nat, 256 ≤ limit → adapter.queueSize ≤ limit := by
      omega
    simp [hle _ hslice, hle _ hchan, hdefault, hslice, hchan]
  · have hnonneg : 0 ≤ adapter.queueSize := by omega
    simp only [hnonneg, true_and]
    exact ⟨fun h => ⟨h.1.1, h.2, h.1.2⟩, fun h => ⟨⟨h.1, h.2.2⟩, h.2.1⟩⟩

end

/-- Settings with which the queues of a tunnel can be made: probabilities that
are not negative are used, and the size of the queues of a tunnel that listens
is not replaced. -/
structure Runnable (runtime : Runtime) (c : Config) (tunnel : TunnelConfig) :
    Prop where
  wred : 0 ≤ tunnel.wred.maxDropProbability → 0 ≤ tunnel.wred.weightFactor ∧
    tunnel.wred.maxDropProbability ≤ 1 ∧ 0 ≤ tunnel.wred.maxThreshold ∧ tunnel.wred.maxThreshold ≤ 1
  listen : tunnel.direction = .listen → 0 ≤ c.queueSizeOf tunnel
  slice : c.queueSizeOf tunnel ≤ runtime.sliceLimit
  chan : c.queueSizeOf tunnel ≤ runtime.chanLimit

theorem wredFits_fillDefaults {size : Int} {tunnel : TunnelConfig} (hsize : 0 < size) :
    WredFits size tunnel.fillDefaults.wred ↔ (0 ≤ tunnel.wred.maxDropProbability →
        0 ≤ tunnel.wred.weightFactor ∧ tunnel.wred.maxDropProbability ≤ 1 ∧
          0 ≤ tunnel.wred.maxThreshold ∧ tunnel.wred.maxThreshold ≤ 1) := by
  have hdrop : 0 < tunnel.fillDefaults.wred.maxDropProbability ↔ 0 ≤ tunnel.wred.maxDropProbability
    := fill_iff (0 < ·) (0 ≤ ·) (by decide +kernel)
      fun hset => (Ne.symm hset).le_iff_lt.symm
  have hdrop_le : tunnel.fillDefaults.wred.maxDropProbability ≤ 1 ↔ tunnel.wred.maxDropProbability ≤
    1 := fill_iff (· ≤ 1) (· ≤ 1) (by decide +kernel) fun _ => Iff.rfl
  have hweight : 0 < tunnel.fillDefaults.wred.weightFactor ↔ 0 ≤ tunnel.wred.weightFactor :=
    fill_iff (0 < ·) (0 ≤ ·) (by decide +kernel)
      fun hset => (Ne.symm hset).le_iff_lt.symm
  have hthreshold : 0 ≤ tunnel.fillDefaults.wred.maxThreshold ↔ 0 ≤ tunnel.wred.maxThreshold :=
    fill_iff (0 ≤ ·) (0 ≤ ·) (by decide +kernel) fun _ => Iff.rfl
  have hthreshold_le : tunnel.fillDefaults.wred.maxThreshold ≤ 1 ↔ tunnel.wred.maxThreshold ≤ 1 :=
    fill_iff (· ≤ 1) (· ≤ 1) (by decide +kernel) fun _ => Iff.rfl
  rw [WredFits, hdrop, ← hdrop_le, ← hweight, ← hthreshold, ← hthreshold_le]
  refine imp_congr_right fun hused => ?_
  constructor
  · intro acceptable
    exact ⟨acceptable.weight_pos, acceptable.drop_le,
      acceptable.threshold_nonneg, acceptable.threshold_le⟩
  · rintro ⟨hweight, hle, hnonneg, hthreshold⟩
    exact ⟨hweight, (hdrop.2 hused).le, hle, hnonneg, hthreshold, hsize⟩

theorem runs_iff_of_completed {env : Environment} {runtime : Runtime} {pow : ℚ → ℚ} {Packet : Type}
    {c after : Config} {tunnel result : TunnelConfig} (hshared : c.initializeShared env = .ok
    after.adapter) (htunnel : tunnel ∈ c.tunnels) (completed : Config.Completed env tunnel result) :
    Runs runtime pow Packet after result ↔ Runnable runtime c tunnel := by
  have hslice := runtime.le_sliceLimit
  have hchan := runtime.le_chanLimit
  have hdefault : defaultQueueSize = 256 := rfl
  obtain ⟨adapter, hadapter, hsize⟩ := Config.queueSize_adapterForTunnel hshared htunnel completed
  have hlimit : ∀ limit : Nat, 256 ≤ limit →
      (adapter.queueSize ≤ limit ↔ c.queueSizeOf tunnel ≤ limit) := by
    intro limit hlimit
    rw [hsize]
    exact fill_iff (· ≤ (limit : Int)) (· ≤ (limit : Int)) (by omega)
      fun _ => Iff.rfl
  simp only [Runs, createQueues, hadapter]
  by_cases hlisten : tunnel.direction = .listen
  · have hresult := Config.direction_eq_listen completed hlisten
    have hnonneg : 0 ≤ adapter.queueSize ↔ 0 ≤ c.queueSizeOf tunnel := by
      rw [hsize]
      exact fill_iff (0 ≤ ·) (0 ≤ ·) (by omega) fun _ => Iff.rfl
    have hpos : 0 ≤ adapter.queueSize → 0 < adapter.queueSize := by
      rw [hsize, fill]
      split <;> omega
    simp only [hresult, if_true, exists_both_iff, forall_and, exists_processInbound_iff,
      newClientTunnel, exists_outboundQueue_iff, forall_const]
    constructor
    · rintro ⟨⟨hsize, hchannel⟩, ⟨-, hfifo⟩, hfits⟩
      rw [completed.wred, wredFits_fillDefaults (hpos hsize)] at hfits
      exact ⟨hfits, fun _ => hnonneg.1 hsize, (hlimit _ hslice).1 hfifo,
        (hlimit _ hchan).1 hchannel⟩
    · rintro ⟨hwred, hsize, hfifo, hchannel⟩
      have hsize := hnonneg.2 (hsize hlisten)
      rw [completed.wred, wredFits_fillDefaults (hpos hsize)]
      exact ⟨⟨hsize, (hlimit _ hchan).2 hchannel⟩, ⟨hsize, (hlimit _ hslice).2 hfifo⟩, hwred⟩
  · obtain ⟨hresult, -⟩ := Config.direction_eq_connect completed hlisten
    have hpos : 0 < if adapter.queueSize ≤ 0 then defaultQueueSize
        else adapter.queueSize := by
      split <;> omega
    simp only [hresult, reduceCtorEq, if_false, exists_setupQueues_iff, forall_const,
      completed.wred, wredFits_fillDefaults hpos, hlimit _ hslice, hlimit _ hchan]
    constructor
    · rintro ⟨hfifo, hchannel, hwred⟩
      exact ⟨hwred, fun h => absurd h hlisten, hfifo, hchannel⟩
    · rintro ⟨hwred, -, hfifo, hchannel⟩
      exact ⟨hfifo, hchannel, hwred⟩

/-- For settings that are accepted, the queues of every tunnel can be made
exactly if the ones that were read are runnable. -/
theorem runs_iff_runnable (env : Environment) (runtime : Runtime) (pow : ℚ → ℚ) (Packet : Type)
    {c after : Config} (hafter : c.initializeConfig env = .ok after) :
    (∀ tunnel ∈ after.tunnels, Runs runtime pow Packet after tunnel) ↔
      ∀ tunnel ∈ c.tunnels, Runnable runtime c tunnel := by
  obtain ⟨hshared, hcompleted⟩ := Config.completed_of_initializeConfig hafter
  exact forall_mem_iff_of_forall₂ hcompleted fun tunnel htunnel _ =>
    runs_iff_of_completed hshared htunnel

def bareEnvironment : Environment where
  getenv _ := ""
  trimSpace := id
  quote text := "\"" ++ text ++ "\""
  isIPv4CIDR address := address = "10.0.0.1/24"
  decodeBase64 _ := .error "illegal base64 data at input byte 0"
  parseURL _ := .ok ()
  compileRegexp _ := .ok ()
  generateIPPrefix _ base _ := .ok base

def oneListener (queueSize : Int) (maxDropProbability : ℚ) : Config where
  logLevel := "info"
  adapter := {}
  routeConfig := { enabled := false, routes := [] }
  tunnels :=
    [{ name := "office"
       direction := .listen
       adapter := some { tunnelAddress := ["10.0.0.1/24"], queueSize := queueSize }
       connect := { address := "", port := 0 }
       tls := { certFile := "", keyFile := "" }
       streamCount := 0
       proto := transportWS
       idleTimeout := 0
       reconnectInterval := 0
       wred :=
         { weightFactor := 9
           maxDropProbability := maxDropProbability
           minThreshold := 0
           maxThreshold := 0 }
       trust := none
       auth := none
       ice := none }]
  stunAddress := [defaultICESTUNServer]
  mqttBroker :=
    { address := defaultICEBrokerAddress
      clientID := ""
      username := ""
      password := "" }

theorem runs_iff_runnable_listener : ∃ after, (oneListener 512 (1 / 5)).initializeConfig
      bareEnvironment = .ok after ∧ ∀ tunnel ∈ after.tunnels, Runs linuxRuntime (fun _ => 1 / 512)
      Unit after tunnel := by
  obtain ⟨after, hafter⟩ : ∃ after, (oneListener 512 (1 / 5)).initializeConfig bareEnvironment = .ok
    after := ⟨_, rfl⟩
  refine ⟨after, hafter, (runs_iff_runnable bareEnvironment linuxRuntime
    (fun _ => 1 / 512) Unit hafter).2 ?_⟩
  intro tunnel htunnel
  cases List.mem_singleton.1 htunnel
  exact ⟨fun _ => by decide +kernel, fun _ => by decide, by decide, by decide⟩

/-- A size that is negative, and a probability over one, are accepted. No queue
can be made with either. -/
theorem exists_not_runs : (∃ after, (oneListener (-1) 0).initializeConfig bareEnvironment = .ok
    after ∧ ∃ tunnel ∈ after.tunnels, createQueues linuxRuntime (fun _ => 1 / 512) Unit 1 after
    tunnel = .error .makeChan) ∧ ∃ after, (oneListener 0 2).initializeConfig bareEnvironment = .ok
    after ∧ ∃ tunnel ∈ after.tunnels, createQueues linuxRuntime (fun _ => 1 / 512) Unit 1 after
    tunnel =
          .error (.wred "drop probability must be between 0 and 1") :=
  ⟨⟨_, rfl, _, List.mem_singleton_self _, rfl⟩, ⟨_, rfl, _, List.mem_singleton_self _, rfl⟩⟩

end Pig.Queue
