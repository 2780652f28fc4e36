import StopWait.Proofs.Cues
import StopWait.Proofs.Heeded

/-!
# What a session is indifferent to

Two sessions whose stacks answer the same, down to what is heeded of the datagrams, do the same. In
the end their connections differ in the window that the peer has advertised, and in nothing else.

* `Session.Likens`, `Alike`: scripts that differ in nothing that the session heeds.
* `Twins`: sessions that have done the same, with connections that differ in the peer's window.
* `Twins.heed`, `Twins.play`: what a cue and a script make of them.
* `indifferent`: **what is not heeded makes no difference.**
-/

namespace StopWait.Session

open Connection (Op)
open Segment (heeded)

/-- Whether a session learns its peer's port from a datagram that it receives. -/
def learnsFrom (t : Session) (bytes : List UInt8) : Bool :=
  match t.point?, Segment.parse (bytes.take receiveCapacity) with
  | some (.receiving kind), .ok s => t.connection.learnsFrom kind s
  | _, _ => false

/-- **Cues that differ in nothing that a session heeds**: datagrams that it receives may differ in
the rest, and in their source ports unless it learns its peer's. -/
inductive Likens (t : Session) : Cue → Cue → Prop where
  | same (k : Cue) : Likens t k k
  | datagram {n : Nat} {bytes bytes' : List UInt8} (hcall : t.call? = some (.networkRecv n))
    (h : heeded (t.learnsFrom bytes) bytes = heeded (t.learnsFrom bytes) bytes') :
    Likens t (.answer (.bytes bytes)) (.answer (.bytes bytes'))

/-- **Scripts that differ in nothing that a session heeds** that plays the first of them. -/
def Alike : Session → List Cue → List Cue → Prop
  | _, [], [] => True
  | t, k :: ks, k' :: ks' => t.Likens k k' ∧ Alike ((t.heed k).elim t Prod.snd) ks ks'
  | _, _, _ => False

variable {c₀ c d : Connection} {x : Stage} {t t' u : Session} {past past' : Past} {call : Call}
  {r : Response} {w : UInt16} {k k' : Cue} {bytes bytes' : List UInt8} {turn turn' : Turn}

/-- Scripts that go on with an answer to the call that a session waits on. -/
theorem alike_answer (hx : x.Fits c₀ c) (hcall : (staged (c, x)).call? = some call)
    (hr : r.suits call = true) (hk : (staged (c, x)).Likens (.answer r) k') {ks ks' : List Cue}
    (hks : (carry c (x.turn r)).2.Fits c₀ (carry c (x.turn r)).1 →
      Alike (staged (carry c (x.turn r))) ks ks') :
    Alike (staged (c, x)) (.answer r :: ks) (k' :: ks') := by
  obtain ⟨hheed, hfits⟩ := heeds_answer hx hcall hr
  refine ⟨hk, ?_⟩
  rw [hheed]
  exact hks hfits

/-- Scripts that begin with a run. -/
theorem alike_run (h₀ : c₀.Free .listen) {ks ks' : List Cue}
    (hks : (carry c₀ (opening c₀.role)).2.Fits c₀ (carry c₀ (opening c₀.role)).1 →
      Alike (staged (carry c₀ (opening c₀.role))) ks ks') :
    Alike (staged (c₀, .ready)) (.run :: ks) (.run :: ks') := by
  obtain ⟨hheed, hfits⟩ := heeds_run h₀
  refine ⟨.same _, ?_⟩
  rw [hheed]
  exact hks hfits

/-- Turns that differ in the segment that the first operation is with, if at all. -/
inductive Turn.Agrees (c : Connection) : Turn → Turn → Prop where
  | same (t : Turn) : Turn.Agrees c t t
  | first {op op' : Op} (h : op.Agrees c op') (ops : List Op) (x : Stage) :
    Turn.Agrees c (op :: ops, x) (op' :: ops, x)

theorem carry_retuned (h : Turn.Agrees c turn turn') (w : UInt16) :
    ∃ w', carry (c.retuned w) turn' = ((carry c turn).1.retuned w', (carry c turn).2) := by
  have hattempt : ∃ w', (c.retuned w).attempt turn'.1 =
      ((c.attempt turn.1).1.retuned w', (c.attempt turn.1).2) := by
    cases h with
    | same => exact Connection.attempt_retuned c w turn.1
    | first h ops x => exact Connection.attempt_cons_retuned c w h ops
  have hstage : turn'.2 = turn.2 := by cases h <;> rfl
  obtain ⟨w', hw⟩ := hattempt
  refine ⟨w', ?_⟩
  simp only [carry, hw, hstage]
  rcases c.attempt turn.1 with ⟨d, e⟩
  cases e <;> rfl

theorem call_retuned (x : Stage) (c : Connection) (w : UInt16) :
    (staged (c.retuned w, x)).call? = (staged (c, x)).call? := by
  cases x <;> rfl

theorem result_retuned (x : Stage) (c : Connection) (w : UInt16) :
    (staged (c.retuned w, x)).result? = (staged (c, x)).result? := by
  cases x <;> rfl

/-- What arrives while nothing is awaited leads to turns that agree. -/
theorem arrival_agrees {s s' : Segment} {port : Bool} (h : s.Agrees port s') :
    Turn.Agrees c (arrival s) (arrival s') := by
  unfold arrival
  rw [h.control, h.payload]
  have hrecord : Op.Agrees c (.record s) (.record s') :=
    .record ⟨h.seq, h.ack, h.control, h.payload, nofun⟩
  by_cases hf : s.header.control.fin = true
  · rw [if_pos hf, if_pos hf]
    exact .first hrecord _ _
  · rw [if_neg hf, if_neg hf]
    by_cases hp : s.payload.isEmpty = true
    · rw [if_pos hp, if_pos hp]
      exact .same _
    · rw [if_neg hp, if_neg hp]
      exact .first hrecord _ _

/-- What is awaited leads to turns that agree. -/
theorem take_agrees {v : Wait} {s s' : Segment} (h : s.Agrees (c.learnsFrom v.kind s) s') :
    Turn.Agrees c (v.take s) (v.take s') := by
  unfold Wait.take
  rw [h.payload]
  exact .first (.accept h) _ _

/-- **Datagrams of which the session heeds the same lead to turns that agree.** -/
theorem turn_agrees {n : Nat} (hcall : (staged (c, x)).call? = some (.networkRecv n))
    (h : heeded ((staged (c, x)).learnsFrom bytes) bytes =
      heeded ((staged (c, x)).learnsFrom bytes) bytes') :
    Turn.Agrees c (x.turn (.bytes bytes)) (x.turn (.bytes bytes')) := by
  have hreads : Segment.Reads ((staged (c, x)).learnsFrom bytes)
      (Segment.parse (bytes.take receiveCapacity)) (Segment.parse (bytes'.take receiveCapacity)) := by
    refine Segment.reads_of_heeded ?_
    rw [Segment.heeded_take, h, Segment.heeded_take]
  have hlearns : ∀ v s, x = .receiving v → Segment.parse (bytes.take receiveCapacity) = .ok s →
      (staged (c, x)).learnsFrom bytes = c.learnsFrom v.kind s := by
    rintro v s rfl hs
    simp only [learnsFrom, hs]
    rfl
  generalize hread : Segment.parse (bytes.take receiveCapacity) = read at hreads hlearns
  generalize hread' : Segment.parse (bytes'.take receiveCapacity) = read' at hreads
  cases x with
  | reading =>
    simp only [Stage.turn, readSegment, hread, hread']
    cases hreads with
    | failed e => exact .same _
    | ok hs => exact arrival_agrees hs
  | receiving v =>
    simp only [Stage.turn, readSegment, hread, hread']
    cases hreads with
    | failed e => exact .same _
    | ok hs =>
      rw [hlearns v _ rfl rfl] at hs
      exact take_agrees hs
  | _ => cases hcall

/-- **Sessions that have done the same**, and whose connections differ in the window that the peer
has advertised. -/
structure Twins (c₀ : Connection) (past past' : Past) (t t' : Session) : Prop where
  stage : ∃ c x w, t = staged (c, x) ∧ t' = staged (c.retuned w, x) ∧ x.Fits c₀ c ∧
    x.Fits c₀ (c.retuned w)
  calls : calls past t = calls past' t'
  results : results past t = results past' t'

theorem twins_self (hx : x.Fits c₀ c) (past : Past) :
    Twins c₀ past past (staged (c, x)) (staged (c, x)) :=
  ⟨⟨c, x, c.received.window, rfl, rfl, hx, hx⟩, rfl, rfl⟩

/-- What twins come to that go on alike are twins again. -/
theorem Twins.next (h : Twins c₀ past past' t t') {e e' : Happening} (hx : x.Fits c₀ c)
    (hx' : x.Fits c₀ (c.retuned w)) :
    Twins c₀ ((t, e) :: past) ((t', e') :: past') (staged (c, x)) (staged (c.retuned w, x)) := by
  refine ⟨⟨c, x, w, rfl, rfl, hx, hx'⟩, ?_, ?_⟩
  · rw [Session.calls, Session.calls, h.calls, call_retuned]
  · rw [Session.results, Session.results, h.results, result_retuned]

/-- **A run that begins**: both connections are in LISTEN and have heard nothing yet, or both are
refused for the same reason. -/
theorem start_retuned (h₀ : c₀.Free .listen) (hx : x.Fits c₀ c) (hx' : x.Fits c₀ (c.retuned w)) :
    ∃ d y w', (staged (c, x)).start.1 = staged (d, y) ∧
      (staged (c.retuned w, x)).start.1 = staged (d.retuned w', y) ∧ y.Fits c₀ d ∧
      y.Fits c₀ (d.retuned w') := by
  have hstate : (c.retuned w).state = c.state := rfl
  by_cases hl : c.state = .listen
  · obtain rfl : c = c₀ := hx.eq_of_listen hl
    have hsame : c.retuned w = c := hx'.eq_of_listen (hstate.trans hl)
    have hleads := start_leads (x := x) h₀
    rw [hsame]
    exact ⟨_, _, _, hleads.stop, hleads.stop, hleads.fits, hleads.fits⟩
  · have he := Connection.apply_start hl
    have he' : (c.retuned w).apply (.start (c.retuned w).role) = .error c.reopening := by
      have hrole : (c.retuned w).role = c.role := rfl
      rw [hrole, Connection.apply_retuned, he]
      rfl
    exact ⟨c, .failed (.connection c.reopening), w, start_of_apply_error he, start_of_apply_error he',
      .inr hl, .inr hl⟩

/-- **Twins heed two cues alike**: neither does anything, or both go on as twins. -/
def HeedAlike (c₀ : Connection) (past past' : Past) (t t' : Session) (k k' : Cue) : Prop :=
  (t.heed k = none ∧ t'.heed k' = none) ∨
  ∃ e e' u u', t.heed k = some (e, u) ∧ t'.heed k' = some (e', u') ∧
    Twins c₀ ((t, e) :: past) ((t', e') :: past') u u'

/-- What twins make of answers that lead to turns that agree. -/
theorem Twins.answered {r' : Response}
    (h : Twins c₀ past past' (staged (c, x)) (staged (c.retuned w, x))) (hx : x.Fits c₀ c)
    (hx' : x.Fits c₀ (c.retuned w)) (hcall : (staged (c, x)).call? = some call)
    (hsuits : r'.suits call = r.suits call) (hturn : Turn.Agrees c (x.turn r) (x.turn r')) :
    HeedAlike c₀ past past' (staged (c, x)) (staged (c.retuned w, x)) (.answer r) (.answer r') := by
  have hcall' : (staged (c.retuned w, x)).call? = some call := (call_retuned x c w).trans hcall
  rw [HeedAlike, heed_answer hx hcall, heed_answer hx' hcall', hsuits]
  cases hr : r.suits call with
  | false => exact .inl ⟨rfl, rfl⟩
  | true =>
    obtain ⟨w', hw⟩ := carry_retuned hturn w
    have hfits := fits_answer hx hcall hr
    have hfits' := fits_answer hx' hcall' (hsuits.trans hr)
    rw [hw] at hfits' ⊢
    exact .inr ⟨_, _, _, _, rfl, rfl, h.next hfits hfits'⟩

/-- **What twins make of cues in which they heed the same.** -/
theorem Twins.heed (h₀ : c₀.Free .listen) (h : Twins c₀ past past' t t') (hk : t.Likens k k') :
    HeedAlike c₀ past past' t t' k k' := by
  obtain ⟨c, x, w, rfl, rfl, hx, hx'⟩ := h.stage
  cases hk with
  | same =>
    cases k with
    | run =>
      obtain ⟨d, y, w', hstart, hstart', hy, hy'⟩ := start_retuned h₀ hx hx'
      have hrun : ∀ t : Session, t.heed .run = some (.run, t.start.1) := fun _ => rfl
      rw [HeedAlike, hrun, hrun, hstart, hstart']
      exact .inr ⟨_, _, _, _, rfl, rfl, h.next hy hy'⟩
    | answer r =>
      cases hcall : (staged (c, x)).call? with
      | none =>
        exact .inl ⟨heed_answer_of_none hcall r,
          heed_answer_of_none ((call_retuned x c w).trans hcall) r⟩
      | some call => exact h.answered hx hx' hcall rfl (.same _)
  | datagram hcall hsame => exact h.answered hx hx' hcall rfl (turn_agrees hcall hsame)

/-- **What twins make of scripts in which they heed the same.** -/
theorem Twins.play (h₀ : c₀.Free .listen) (h : Twins c₀ past past' t t') {ks ks' : List Cue}
    (hks : Alike t ks ks') :
    Twins c₀ (Session.play past t ks).1 (Session.play past' t' ks').1 (Session.play past t ks).2
      (Session.play past' t' ks').2 := by
  induction ks generalizing past past' t t' ks' with
  | nil =>
    cases ks' with
    | nil => exact h
    | cons k' ks' => exact hks.elim
  | cons k ks ih =>
    cases ks' with
    | nil => exact hks.elim
    | cons k' ks' =>
      obtain ⟨hk, hrest⟩ := hks
      obtain ⟨hnone, hnone'⟩ | ⟨e, e', u, u', hstep, hstep', htwins⟩ := h.heed h₀ hk
      · rw [hnone] at hrest
        rw [Session.play, Session.play, hnone, hnone']
        exact ih h hrest
      · rw [hstep] at hrest
        rw [Session.play, Session.play, hstep, hstep']
        exact ih htwins hrest

/-- **What a session does not heed makes no difference.** Two new sessions of the same role and
settings play scripts whose datagrams differ in the window, the checksum, the urgent pointer, the
destination port and the bits that carry nothing, and in the source port unless a SYN is accepted
by a session without remote port. They make the same calls, down to the bytes, their runs come to
the same results, and their transfer logs are the same, also when they are let go. Their connections
differ in the window that the peer has advertised, and in nothing else. -/
theorem indifferent (settings : Settings) (role : Role) (sink : Option Log.Sink)
    {script script' : List Cue} (h : Alike (opened settings role sink) script script') :
    let (past, t) := play [] (opened settings role sink) script
    let (past', t') := play [] (opened settings role sink) script'
    calls past t = calls past' t' ∧ results past t = results past' t' ∧
    t'.connection.log = t.connection.log ∧ t'.drop.connection.log = t.drop.connection.log ∧
    ∃ window, t'.connection =
      { t.connection with received := { t.connection.received with window } } := by
  have h₀ := Connection.opened_free settings role sink
  rw [opened_eq] at h ⊢
  have hfresh : Stage.ready.Fits (Connection.opened settings role sink)
      (Connection.opened settings role sink) := rfl
  have htwins := (twins_self hfresh []).play h₀ h
  obtain ⟨c, x, w, ht, ht', -, -⟩ := htwins.stage
  refine ⟨htwins.calls, htwins.results, ?_, ?_, w, ?_⟩ <;> rw [ht, ht'] <;> rfl

/-- A passive session is run, hears a SYN and an acknowledgment, and releases its application. -/
def hearing (syn ack : List UInt8) : List Cue :=
  [.run, .answer (.event .networkData), .answer (.bytes syn), .answer (.sent 20),
    .answer (.event .networkData), .answer (.bytes ack), .answer .told]

/-- Every byte of the SYN's window, checksum and urgent pointer differs, and all of its bits that
carry nothing; of the acknowledgment the source port differs as well. -/
theorem indifferent_bytes :
    let s := opened {} .passive none
    let script := hearing
      [0, 7, 0, 0, 0, 0, 0, 1, 0, 0, 0, 0, 0x50, 0x02, 0, 0, 0, 0, 0, 0]
      [0, 7, 0, 0, 0, 0, 0, 2, 0, 0, 0, 2, 0x50, 0x10, 0, 0, 0, 0, 0, 0]
    let script' := hearing
      [0, 7, 1, 2, 0, 0, 0, 1, 0, 0, 0, 0, 0x5F, 0xEE, 3, 4, 5, 6, 7, 8]
      [9, 9, 1, 2, 0, 0, 0, 2, 0, 0, 0, 2, 0x5F, 0xFC, 3, 4, 5, 6, 7, 8]
    Alike s script script' ∧
      calls (play [] s script).1 (play [] s script).2 =
        calls (play [] s script').1 (play [] s script').2 := by
  intro s script script'
  have halike : Alike s script script' := by
    have hs : s = staged (Connection.opened {} .passive none, .ready) := opened_eq {} .passive none
    rw [hs]
    refine alike_run (Connection.opened_free {} .passive none) fun hx => ?_
    refine alike_answer hx rfl rfl (.same _) fun hx => ?_
    refine alike_answer hx rfl rfl (.datagram rfl (by decide +kernel)) fun hx => ?_
    refine alike_answer hx rfl rfl (.same _) fun hx => ?_
    refine alike_answer hx rfl rfl (.same _) fun hx => ?_
    refine alike_answer hx rfl rfl (.datagram rfl (by decide +kernel)) fun hx => ?_
    exact alike_answer hx rfl rfl (.same _) fun _ => trivial
  exact ⟨halike, (indifferent {} .passive none halike).1⟩

end StopWait.Session
