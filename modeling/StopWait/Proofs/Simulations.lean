import StopWait.Simulation
import StopWait.Proofs.Lulls

/-!
# Simulations that pass

A simulation of any size that can be held comes to its end, whatever the latency, and its logs are
what the algorithm predicts.

* `uploads_joined`: the invariant of an upload holds at first.
* `uploads_play`: **the schedule of an upload plays to its end**, when both sessions have ended.
* `Simulation.run_passes`: **what a simulation reports.**
-/

namespace StopWait

namespace Link

open Session (Stage Party)

variable {network : Network} {opener : Side} {ends : Both Setup} {writer : Side}
  {payload : List UInt8}

/-- **The invariant of an upload holds at first.** -/
theorem uploads_joined (ht : Transfer network ends writer [payload] [])
    (hsink : ∀ s, (ends.get s).sink = some {}) (hsilent : (ends.get writer.other).script = [])
    (opener : Side) :
    Uploads (firstConnection opener ends) writer payload
      (World.joined network opener ends).chronicle (firstParties opener ends) 27 := by
  have hT := transfers_joined ht opener
  rw [List.flatten_singleton] at hT
  have hwrites := ht.writes
  exact {
    transfers := hT
    draws := by
      have hdraws : Draws payload {} (ends.get writer).script :=
        ⟨hwrites ▸ List.suffix_refl _, fun hb => absurd rfl hb⟩
      cases writer <;> exact ⟨hdraws.asks, hdraws.buffered⟩
    silent := by cases writer <;> exact hsilent
    apps := fun s => by cases s <;> exact ⟨rfl, nofun⟩
    hosts := fun s due ht => by cases s <;> cases ht
    logged := fun s => by
      have hlogged : (firstConnection opener ends s).Logged [] := by
        unfold firstConnection Setup.connection
        rw [hsink s]
        exact Connection.logged_opened _ _
      have hread : (World.joined network opener ends).chronicle.read s = [] := rfl
      rw [get_firstParties, hread, List.length_nil, pieceLengths_zero]
      exact hlogged
    whole := .inl rfl
    landed := fun s hx => by
      rw [get_firstParties] at hx
      cases hx
    hears := fun s => by
      rw [get_firstParties]
      cases s <;> exact ⟨rfl, nofun⟩ }

/-- **The schedule of an upload plays to its end.** -/
theorem uploads_play (ht : Transfer network ends writer [payload] [])
    (hsink : ∀ s, (ends.get s).sink = some {}) (hsilent : (ends.get writer.other).script = [])
    (opener : Side) :
    ∃ h p n, h.world = (World.joined network opener ends).play none ∧
      Uploads (firstConnection opener ends) writer payload h p n ∧
      ∀ s, (p.get s).stage = .ended := by
  have h₀ : ∀ s, (firstConnection opener ends s).Free .listen := fun s =>
    Connection.opened_free _ _ _
  have hU := uploads_joined ht hsink hsilent opener
  have hpending := pending_joined network opener ends writer payload
  have heffort : (World.joined network opener ends).effort = 256 * (payload.length + 20) := by
    have hscripts : World.appEffort (ends.get .near).script +
        World.appEffort (ends.get .far).script =
          World.appEffort (writing [payload] []) + World.appEffort [] := by
      rw [← ht.writes, ← hsilent]
      cases writer
      · rfl
      · exact Nat.add_comm _ _
    simp only [writing, List.map_cons, List.map_nil, List.cons_append, List.nil_append,
      World.appEffort] at hscripts
    show 256 * (World.appEffort (ends.get .near).script + World.appEffort (ends.get .far).script +
      (ends.get .near).runs + (ends.get .far).runs + 16) = _
    rw [ht.runs, ht.runs]
    omega
  simp only [hsilent, ht.writes, writing, List.map_cons, List.map_nil, List.cons_append,
    List.nil_append, List.length_cons, List.length_nil] at hpending
  have hfuel : 9 * (9 * payload.length + 29 + (0 + 1 + 1 + 0)) + 10 <
      (World.joined network opener ends).effort := by omega
  obtain ⟨m, ⟨h, p, n, hworld, hU', -⟩, hdone⟩ :=
    (winds_uploading h₀).play ⟨_, _, _, rfl, hU, Nat.le_of_eq hpending⟩ hfuel
  refine ⟨h, p, n, hworld, hU', fun s => (hU'.transfers.steady s).finished ?_⟩
  rw [World.isFinished, Bool.and_eq_true, ← hworld] at hdone
  cases s
  · exact hdone.1
  · exact hdone.2

end Link

namespace Simulation

open Link

/-- The ends of a simulation. -/
def ends (s : Simulation) : Both Setup :=
  ⟨{ settings := { localPort := clientPort, remotePort := serverPort }, sink := some {},
     script := writing [payload s.bytes] [] },
   { settings := { localPort := serverPort, remotePort := clientPort }, sink := some {} }⟩

/-- The network of a simulation. -/
def network (s : Simulation) : Network :=
  match s.latency with
  | some ms => .latent ms
  | none => .reliable

/-- A simulation is an upload. -/
theorem world_eq (s : Simulation) : s.world = World.joined s.network .near s.ends := rfl

theorem transfer_ends (s : Simulation) : Transfer s.network s.ends .near [payload s.bytes] [] where
  lossless := by
    unfold network
    split <;> trivial
  runs := fun side => by cases side <;> rfl
  patient := fun side => by cases side <;> rfl
  log := fun side sink hs => by cases side <;> cases hs <;> rfl
  writes := rfl
  rest := nofun
  silent := nofun

theorem feedResult_of_done {replies : List AppReply} (h : ∀ reply ∈ replies, reply = .done) :
    feedResult replies = .ok () := by
  induction replies with
  | nil => rfl
  | cons reply rest ih =>
    rw [h reply List.mem_cons_self]
    exact ih fun r hr => h r (List.mem_cons_of_mem _ hr)

section ended

variable {c₀ : Side → Connection} {writer side : Side} {bytes : List UInt8} {g : Chronicle}
  {p : Both Session.Party} {n : Nat}

theorem runResult_of_ended (hT : Transfers c₀ writer bytes g p n)
    (hx : (p.get side).stage = .ended) : runResult g.world side = .ok () := by
  rw [runResult, (hT.steady side).driver, hx]
  rfl

theorem logAt_eq (hT : Transfers c₀ writer bytes g p n) (side : Side) :
    logAt g.world side = (p.get side).connection.log.contents := by
  rw [logAt, (hT.steady side).driver]
  rfl

/-- All has been read when the sessions have ended. -/
theorem read_of_ended (hT : Transfers c₀ writer bytes g p n)
    (hx : (p.get writer).stage = .ended) : g.read writer = bytes :=
  ((hT.holds.flow writer).quiet
    ((hT.holds.station writer).isQuiet_of_done (hT.done_of_ended hx))).trans
    (hT.delivered_of_ended hx).1

end ended

theorem auditText_text (records : List Log.Record) :
    auditText (Log.text records) = .ok (Log.audit records) := by
  rw [auditText, Log.read_text]

/-- **What a simulation reports**, as long as its bytes can be held: it passes, all of them are
delivered, neither log has a mismatch, the server's log is empty, and the client's is that of a window
that goes through a cycle for each consecutive piece. -/
theorem run_passes (s : Simulation) (h : s.bytes < sizeLimit) :
    ∃ report window records, s.run = .ok report ∧
      report.passed = true ∧ report.delivered = s.bytes ∧
      report.clientMismatches = [] ∧ report.serverMismatches = [] ∧ report.serverLog = [] ∧
      SendWindow.initial.cycles (pieceLengths s.bytes) = .ok (window, records) ∧
      records.length = 2 * ((s.bytes + (mss.toNat - 1)) / mss.toNat) ∧
      report.clientLog = Log.text records ∧ Log.read report.clientLog = .ok records := by
  have hsink : ∀ side, (s.ends.get side).sink = some {} := fun side => by cases side <;> rfl
  obtain ⟨g, p, n, hworld, hU, hended⟩ := uploads_play s.transfer_ends hsink rfl .near
  rw [← s.world_eq] at hworld
  have hT := hU.transfers
  have hlength : (payload s.bytes).length = s.bytes := by simp [payload]
  -- the transfer log of the client, and the empty one of the server
  have hlogged := hU.logged .near
  rw [read_of_ended hT (hended .near), hlength] at hlogged
  obtain ⟨records, hcycles, hcontents, haudit⟩ := hlogged.contents (hU.landed .near (hended .near))
  have hserver := hU.logged .far
  have hnone : g.read .far = [] := hT.read_other
  rw [hnone, List.length_nil, pieceLengths_zero] at hserver
  obtain ⟨records', hcycles', hcontents', -⟩ := hserver.contents (hU.landed .far (hended .far))
  obtain rfl : records' = [] := List.length_eq_zero_iff.1 (SendWindow.length_of_cycles hcycles')
  -- the application of the server has heard all
  have hreceived : receivedAt g.world .far = payload s.bytes :=
    (hU.hears .far).bytes.trans (hT.delivered_of_ended (hended .near)).1
  have hfeed : feedResult g.world.apps.near.answers = .ok () :=
    feedResult_of_done fun reply hm => (hU.apps .near).2 reply (List.mem_reverse.1 hm)
  have hclient : logAt g.world .near = Log.text records := (logAt_eq hT .near).trans hcontents
  have hserver : logAt g.world .far = Log.text [] := (logAt_eq hT .far).trans hcontents'
  have hrun : s.run = .ok
      { delivered := s.bytes, elapsed := g.world.link.now, clientLog := Log.text records,
        serverLog := [], clientMismatches := [], serverMismatches := [] } := by
    rw [run, if_pos h, ← hworld]
    simp only [inspect, runResult_of_ended hT (hended _), hfeed, hreceived, hclient, hserver,
      auditText_text, haudit, hlength, bind, Except.bind, pure, Except.pure]
    exact if_neg fun hne => hne rfl
  refine ⟨_, _, records, hrun, rfl, rfl, rfl, rfl, rfl, hcycles, ?_, rfl, Log.read_text records⟩
  rw [SendWindow.length_of_cycles hcycles, length_pieceLengths]

/-- Two full pieces and what is left over. -/
theorem run_passes_overFull : ({ bytes := 1073, latency := some 5 } : Simulation).bytes < sizeLimit ∧
    ∃ report window records, ({ bytes := 1073, latency := some 5 } : Simulation).run = .ok report ∧
      report.passed = true ∧ report.delivered = 1073 ∧
      report.clientMismatches = [] ∧ report.serverMismatches = [] ∧ report.serverLog = [] ∧
      SendWindow.initial.cycles [536, 536, 1] = .ok (window, records) ∧ records.length = 6 ∧
      report.clientLog = Log.text records ∧ Log.read report.clientLog = .ok records :=
  ⟨by decide, run_passes { bytes := 1073, latency := some 5 } (by decide)⟩

/-- A payload that cannot be held is not sent. -/
theorem not_run_of_sizeLimit :
    ¬ ∃ report, ({ bytes := 9223372036854775808 } : Simulation).run = .ok report := by
  rintro ⟨report, hrun⟩
  rw [run, if_neg (by decide)] at hrun
  cases hrun

end Simulation

end StopWait
