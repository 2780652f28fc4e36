import StopWait.Proofs.Opening

/-!
# Two connections in dialogue

A connection that calls and one that is called, without a session around either: each operation is
asked for by hand, and each segment goes over the wire. They open, one after the other sends data
that is acknowledged, and one of them closes. Only a transfer log can make any of this fail.

* `Dialogue.handshake`, `exchange`, `close`: the operations, in order.
* `Dialogue.Attains`: what comes off satisfies a property, and it comes off on a condition.
* `Connection.Stands`: where a connection stands in a dialogue. `Stands.apply`, `record`, `accept`,
  `control`, `data`: each operation comes off while the logs take every record, and counts the
  numbers on.
* `Dialogue.Agrees`: **one end's numbers, as the other one knows them.**
* `Dialogue.numbers_agree`: **the sequence numbers of the two ends agree**, after every exchange and
  after the close.
-/

namespace StopWait

open Link (Both Side)

namespace Dialogue

/-- Why a dialogue breaks off. -/
inductive Fault where
  /-- An operation fails. -/
  | operation (e : Connection.Error)
  /-- A datagram is no segment. -/
  | datagram (e : Header.ParseError)
deriving DecidableEq, Repr

/-- Performs an operation, which must not fail. -/
def act (c : Connection) (op : Connection.Op) : Except Fault Connection :=
  match c.perform op with
  | (d, none) => .ok d
  | (_, some e) => .error (.operation e)

/-- Builds a segment, and reads it off the wire. -/
def transmit (c : Connection) (kind : Kind) (payload : List UInt8) :
    Except Fault (Connection × Segment) :=
  match c.segment kind payload with
  | (_, .error e) => .error (.operation e)
  | (d, .ok s) =>
    match Segment.parse s.serialize with
    | .error e => .error (.datagram e)
    | .ok r => .ok (d, r)

/-- The opening handshake, in which the near connection calls the far one. -/
def handshake (p : Both Connection) : Except Fault (Both Connection) := do
  let a ← act p.near (.apply (.start .active))
  let b ← act p.far (.apply (.start .passive))
  let (a, syn) ← transmit a .syn []
  let b ← act b (.accept .syn syn)
  let b ← act b (.apply (.arrived .syn))
  let (b, synAck) ← transmit b .synAck []
  let a ← act a (.accept .synAck synAck)
  let a ← act a (.apply (.arrived .synAck))
  let (a, ack) ← transmit a .ack []
  let b ← act b (.accept .ack ack)
  let b ← act b (.apply (.arrived .ack))
  return ⟨a, b⟩

/-- What goes over the wire in an exchange. -/
structure Traffic where
  data : Segment
  ack : Segment
deriving DecidableEq, Repr

/-- One connection sends data, and the other one acknowledges it. -/
def exchange (x y : Connection) (payload : List UInt8) :
    Except Fault (Connection × Connection × Traffic) := do
  let x ← act x (.apply .write)
  let (x, data) ← transmit x .data payload
  let y ← act y (.record data)
  let y ← act y (.apply (.arrived .data))
  let (y, ack) ← transmit y .ack []
  let x ← act x (.accept .ack ack)
  let x ← act x (.apply (.arrived .ack))
  return (x, y, ⟨data, ack⟩)

/-- One connection closes, and the other one closes its half at once. -/
def close (x y : Connection) : Except Fault (Connection × Connection) := do
  let x ← act x (.apply .close)
  let (x, fin) ← transmit x .fin []
  let y ← act y (.record fin)
  let y ← act y (.apply (.arrived .fin))
  let (y, ack) ← transmit y .ack []
  let y ← act y (.apply .close)
  let (y, reply) ← transmit y .fin []
  let x ← act x (.accept .ack ack)
  let x ← act x (.apply (.arrived .ack))
  let x ← act x (.accept .fin reply)
  let x ← act x (.apply (.arrived .fin))
  let (x, last) ← transmit x .ack []
  let y ← act y (.accept .ack last)
  let y ← act y (.apply (.arrived .ack))
  return (x, y)

/-- **Something comes off with a property.** If it comes off it has the property, and it does come
off if `sure` holds. -/
structure Attains {α : Type} (sure : Prop) (r : Except Fault α) (P : α → Prop) : Prop where
  succeeds : sure → ∃ a, r = .ok a
  holds : ∀ a, r = .ok a → P a

namespace Attains

variable {α β : Type} {sure : Prop} {r : Except Fault α} {P Q : α → Prop}

theorem pure {a : α} (h : P a) : Attains sure (.ok a) P :=
  ⟨fun _ => ⟨a, rfl⟩, fun _ hb => by cases hb; exact h⟩

theorem mono (h : Attains sure r P) (hpq : ∀ a, P a → Q a) : Attains sure r Q :=
  ⟨h.succeeds, fun a ha => hpq a (h.holds a ha)⟩

/-- What is done in two steps comes off if both do. -/
theorem bind {f : α → Except Fault β} {R : β → Prop} (h : Attains sure r P)
    (hf : ∀ a, P a → Attains sure (f a) R) : Attains sure (r >>= f) R := by
  cases r with
  | error e =>
    constructor
    · intro hsure
      obtain ⟨a, ha⟩ := h.succeeds hsure
      cases ha
    · intro b hb
      cases hb
  | ok a => exact hf a (h.holds a rfl)

end Attains

end Dialogue

namespace Segment.Says

variable {s : Segment} {k : Kind} {payload : List UInt8} {seq ack : UInt32}

theorem kind (h : s.Says k payload seq ack) : s.kind = k := by
  rw [Segment.kind, h.control, Kind.ofControl_control]

end Segment.Says

namespace Connection

open Dialogue (act transmit Attains)

variable {sure : Prop} {c d : Connection} {st : State} {flight : Option UInt32} {kind : Kind}
  {s : Segment} {payload : List UInt8} {op : Op}

/-- **Where a connection stands**: its state, and what it has in flight. It has not ended, and its
transfer log takes every record if `sure` holds. -/
structure Stands (sure : Prop) (c : Connection) (st : State) (flight : Option UInt32) : Prop where
  state : c.state = st
  undone : c.done = false
  balanced : c.Balanced
  flight : c.inFlight = flight
  calm : sure → c.log.Calm

/-- The connection after an operation, with its numbers counted on. -/
def Reaches (sure : Prop) (c : Connection) (op : Op) (st : State) (flight : Option UInt32)
    (d : Connection) : Prop :=
  d.Stands sure st flight ∧ d.figures = c.figures.count op

/-- An operation that succeeds keeps a calm transfer log calm. -/
theorem Stands.calm_of_perform (h : c.Stands sure st flight) (hp : c.perform op = (d, none)) :
    sure → d.log.Calm := by
  intro hsure
  have hcalm := calm_perform (h.calm hsure) op
  rwa [hp] at hcalm

theorem attains_act {st' : State} {flight' : Option UInt32} (h : c.Stands sure st flight)
    (hsure : sure → ∃ d, c.perform op = (d, none))
    (hfree : ∀ d, c.perform op = (d, none) →
      d.state = st' ∧ d.done = false ∧ d.Balanced ∧ d.inFlight = flight') :
    Attains sure (act c op) (c.Reaches sure op st' flight') := by
  constructor
  · intro hs
    obtain ⟨d, hp⟩ := hsure hs
    exact ⟨d, by rw [act, hp]⟩
  · intro d hd
    unfold act at hd
    split at hd <;> cases hd
    rename_i hp
    obtain ⟨hst, hundone, hbal, hflight⟩ := hfree d hp
    exact ⟨⟨hst, hundone, hbal, hflight, h.calm_of_perform hp⟩, figures_perform hp⟩

theorem Stands.apply (h : c.Stands sure st flight) (t : Trigger) {r : Transition}
    (ht : st.transition? t = some r) :
    Attains sure (act c (.apply t)) (c.Reaches sure (.apply t) r.next flight) := by
  have hp : c.perform (.apply t) = ({ c with state := r.next }, none) := by
    simp only [perform, Connection.apply, h.undone, Bool.false_eq_true, if_false, h.state, State.on,
      ht]
  refine attains_act h (fun _ => ⟨_, hp⟩) fun d hd => ?_
  cases hp.symm.trans hd
  exact ⟨rfl, h.undone, h.balanced.congr rfl rfl, h.flight⟩

theorem Stands.record (h : c.Stands sure st flight) (hfits : s.seqLenFits = true) :
    Attains sure (act c (.record s)) (c.Reaches sure (.record s) st flight) := by
  have hp : c.perform (.record s) = (c.noteReceived s, none) := by
    simp only [perform, record_eq h.undone hfits]
  refine attains_act h (fun _ => ⟨_, hp⟩) fun d hd => ?_
  cases hp.symm.trans hd
  exact ⟨h.state, h.undone, h.balanced.congr rfl rfl, h.flight⟩

/-- A segment with the bits of the awaited kind is taken in. An ACK takes what is in flight. -/
theorem Stands.accept (h : c.Stands sure st flight) (hk : kind.accepts s.header.control = true)
    (hfits : s.seqLenFits = true) (hf : kind.control.ack = true ∨ flight = none) :
    Attains sure (act c (.accept kind s)) (c.Reaches sure (.accept kind s) st none) := by
  refine attains_act h (fun hsure => ?_) fun d hp => ?_
  · obtain ⟨d, hd⟩ := accept_of_calm (h.calm hsure) h.balanced h.undone hk hfits
    exact ⟨d, by simp only [perform, hd]⟩
  · have hd : c.accept kind s = (d, .ok ()) := by
      simp only [perform] at hp
      split at hp <;> cases hp
      assumption
    have hfree : d.Free c.state := h.balanced.free_of_accept (hf.imp_right h.flight.trans) hd
    exact ⟨hfree.state.trans h.state, hfree.undone, hfree.balanced, hfree.flight⟩

/-- What is built arrives as it is. -/
theorem transmit_eq_ok (h : c.segment kind payload = (d, .ok s)) :
    transmit c kind payload = .ok (d, s) := by
  have hs : s = d.reissue kind payload := reissue_of_segment h
  have hread : Segment.parse s.serialize = .ok s := Segment.parse_serialize (by rw [hs]; rfl)
  simp only [transmit, h, hread]

/-- **A segment that is sent says what the numbers say.** -/
theorem says_of_segment (h : c.segment kind payload = (d, .ok s)) :
    s.Says kind payload (c.figures.numbers kind).1 (c.figures.numbers kind).2 := by
  have hp : c.perform (.segment kind payload) = (d, none) := by
    simp only [perform, h]
  have hfig := figures_perform hp
  have hsays := Session.says_reissue (c := d) kind payload
  rw [hfig] at hsays
  rw [reissue_of_segment h]
  exact hsays

theorem Stands.control (h : c.Stands sure st flight) (kind : Kind) (hk : kind ≠ .data) :
    Attains sure (transmit c kind []) fun r =>
      c.Reaches sure (.segment kind []) st flight r.1 ∧
      r.2.Says kind [] (c.figures.numbers kind).1 (c.figures.numbers kind).2 ∧
      r.2.seqLenFits = true := by
  have hs := segment_control h.undone hk
  have hp : c.perform (.segment kind []) = (c.noteSent kind (c.compose kind []), none) := by
    simp only [perform, hs]
  rw [transmit_eq_ok hs]
  have hstands : (c.noteSent kind (c.compose kind [])).Stands sure st flight :=
    ⟨h.state, h.undone, h.balanced.congr rfl rfl, h.flight, h.calm⟩
  exact .pure ⟨⟨hstands, figures_perform hp⟩, says_of_segment hs, seqLenFits_of_segment hs⟩

theorem Stands.data (h : c.Stands sure st none) (hne : payload ≠ [])
    (hlen : payload.length ≤ mss.toNat) :
    Attains sure (transmit c .data payload) fun r =>
      c.Reaches sure (.segment .data payload) st (some (UInt32.ofNat payload.length)) r.1 ∧
      r.2.Says .data payload c.figures.next c.figures.sentAck ∧ r.2.seqLenFits = true := by
  have hfree : c.Free st := ⟨h.state, h.undone, h.balanced, h.flight⟩
  obtain ⟨d, e, hs, -⟩ | ⟨d, s, hs, hst, hd, hb, hf⟩ := hfree.data hne hlen
  · -- the transfer log refuses the record
    refine ⟨fun hsure => ?_, fun r hr => ?_⟩
    · obtain ⟨d', s, hs'⟩ := segment_of_calm (h.calm hsure) hfree hne hlen
      rw [hs] at hs'
      cases hs'
    · simp only [transmit, hs] at hr
      cases hr
  · have hp : c.perform (.segment .data payload) = (d, none) := by
      simp only [perform, hs]
    rw [transmit_eq_ok hs]
    exact .pure ⟨⟨⟨hst, hd, hb, hf, h.calm_of_perform hp⟩, figures_perform hp⟩,
      says_of_segment hs, seqLenFits_of_segment hs⟩

end Connection

namespace Dialogue

variable {sure : Prop} {x y : Connection} {i j : UInt32} {m n : Nat} {payload : List UInt8}

/-- **One end's numbers, as the other one knows them**: `x`, which began with `i` and has sent `m`
bytes of data, is open with nothing in flight. -/
structure Agrees (sure : Prop) (x y : Connection) (i : UInt32) (m : Nat) : Prop where
  stands : x.Stands sure .established none
  next : x.figures.next = i + 1 + UInt32.ofNat m
  expected : y.figures.expects = x.figures.next
  acked : x.figures.sentAck = x.figures.expects

/-- **An exchange** leaves the numbers in agreement, the sender's counted on by what was sent. -/
theorem Agrees.exchange (hx : Agrees sure x y i m) (hy : Agrees sure y x j n) (hne : payload ≠ [])
    (hlen : payload.length ≤ mss.toNat) :
    Attains sure (exchange x y payload) fun r =>
      Agrees sure r.1 r.2.1 i (m + payload.length) ∧ Agrees sure r.2.1 r.1 j n ∧
      r.2.2.data.Says .data payload x.nextSeq x.expectedSeq ∧
      r.2.2.ack.Says .ack [] y.nextSeq (x.nextSeq + UInt32.ofNat payload.length) := by
  refine (hx.stands.apply .write rfl).bind ?_
  rintro x₁ ⟨s₁, f₁⟩
  refine (s₁.data hne hlen).bind ?_
  rintro ⟨x₂, data⟩ ⟨⟨s₂, f₂⟩, hdata, wdata⟩
  refine (hy.stands.record wdata).bind ?_
  rintro y₁ ⟨t₁, g₁⟩
  refine (t₁.apply (.arrived .data) rfl).bind ?_
  rintro y₂ ⟨t₂, g₂⟩
  refine (t₂.control .ack (by decide)).bind ?_
  rintro ⟨y₃, ack⟩ ⟨⟨t₃, g₃⟩, hack, wack⟩
  refine (s₂.accept hack.accepts wack (.inl rfl)).bind ?_
  rintro x₃ ⟨s₃, f₃⟩
  refine (s₃.apply (.arrived .ack) rfl).bind ?_
  rintro x₄ ⟨s₄, f₄⟩
  -- the data begins where the receiver expects it, and moves on what it expects
  have hdata' : data.Says .data payload x.figures.next x.figures.expects := by
    rw [f₁] at hdata
    exact hx.acked ▸ hdata
  have hexpects : y₂.figures.expects = x.figures.next + UInt32.ofNat payload.length := by
    rw [g₂, g₁]
    exact hdata'.past_data
  have hack' : ack.Says .ack [] y.figures.next (x.figures.next + UInt32.ofNat payload.length) := by
    rw [← hexpects]
    rw [g₂, g₁] at hack ⊢
    exact hack
  have hx₄ : x₄.figures = (x.figures.count (.segment .data payload)).count (.accept .ack ack) := by
    rw [f₄, f₃, f₂, f₁]
    rfl
  have hy₃ : y₃.figures = (y.figures.count (.record data)).count (.segment .ack []) := by
    rw [g₃, g₂, g₁]
    rfl
  -- the acknowledgment brings the sender what the receiver expects
  have hnext : x₄.figures.next = x.figures.next + UInt32.ofNat payload.length := by
    rw [hx₄]
    exact hack'.ack
  have hexpects₄ : x₄.figures.expects = y.figures.next := by
    rw [hx₄]
    exact hack'.past_ack
  have hexpects₃ : y₃.figures.expects = x.figures.next + UInt32.ofNat payload.length := by
    rw [g₃]
    exact hexpects
  refine .pure ⟨⟨s₄, ?_, ?_, ?_⟩, ⟨t₃, ?_, ?_, ?_⟩, hdata', hack'⟩
  · rw [hnext, hx.next, UInt32.ofNat_add, UInt32.add_assoc]
  · rw [hexpects₃, hnext]
  · rw [hexpects₄, ← hy.expected, hx₄]
    exact hx.acked
  · rw [hy₃]
    exact hy.next
  · rw [hexpects₄, hy₃]
    rfl
  · rw [hexpects₃, g₃]
    exact hexpects

/-- **The close** takes one number of either end, and leaves both in agreement. -/
theorem Agrees.close (hx : Agrees sure x y i m) (hy : Agrees sure y x j n) :
    Attains sure (close x y) fun r =>
      (r.1.state = .closed ∧ r.1.nextSeq = r.2.expectedSeq ∧
        r.1.nextSeq = i + 2 + UInt32.ofNat m) ∧
      (r.2.state = .closed ∧ r.2.nextSeq = r.1.expectedSeq ∧
        r.2.nextSeq = j + 2 + UInt32.ofNat n) := by
  refine (hx.stands.apply .close rfl).bind ?_
  rintro x₁ ⟨s₁, f₁⟩
  refine (s₁.control .fin (by decide)).bind ?_
  rintro ⟨x₂, fin⟩ ⟨⟨s₂, f₂⟩, hfin, wfin⟩
  refine (hy.stands.record wfin).bind ?_
  rintro y₁ ⟨t₁, g₁⟩
  refine (t₁.apply (.arrived .fin) rfl).bind ?_
  rintro y₂ ⟨t₂, g₂⟩
  refine (t₂.control .ack (by decide)).bind ?_
  rintro ⟨y₃, ack⟩ ⟨⟨t₃, g₃⟩, hack, wack⟩
  refine (t₃.apply .close rfl).bind ?_
  rintro y₄ ⟨t₄, g₄⟩
  refine (t₄.control .fin (by decide)).bind ?_
  rintro ⟨y₅, reply⟩ ⟨⟨t₅, g₅⟩, hreply, wreply⟩
  refine (s₂.accept hack.accepts wack (.inl rfl)).bind ?_
  rintro x₃ ⟨s₃, f₃⟩
  refine (s₃.apply (.arrived .ack) rfl).bind ?_
  rintro x₄ ⟨s₄, f₄⟩
  refine (s₄.accept hreply.accepts wreply (.inr rfl)).bind ?_
  rintro x₅ ⟨s₅, f₅⟩
  refine (s₅.apply (.arrived .fin) rfl).bind ?_
  rintro x₆ ⟨s₆, f₆⟩
  refine (s₆.control .ack (by decide)).bind ?_
  rintro ⟨x₇, last⟩ ⟨⟨s₇, f₇⟩, hlast, wlast⟩
  refine (t₅.accept hlast.accepts wlast (.inl rfl)).bind ?_
  rintro y₆ ⟨t₆, g₆⟩
  refine (t₆.apply (.arrived .ack) rfl).bind ?_
  rintro y₇ ⟨t₇, g₇⟩
  -- the FIN takes the number that comes next, and both answers to it say so
  have hfin' : fin.header.seq + fin.seqLen = x.figures.next + 1 := by
    rw [f₁] at hfin
    exact hfin.past_flag (by decide)
  have hack' : ack.header.ack = x.figures.next + 1 := by
    rw [g₂, g₁] at hack
    exact hack.ack.trans hfin'
  have hreply' : reply.Says .fin [] y.figures.next (x.figures.next + 1) := by
    rw [g₄, g₃, g₂, g₁] at hreply
    exact hfin' ▸ hreply
  -- with the FIN of the other end the closing one has all its numbers
  have hnext : x₆.figures.next = x.figures.next + 1 := by
    rw [f₆, f₅]
    exact hreply'.ack
  have hexpects : x₆.figures.expects = y.figures.next + 1 := by
    rw [f₆, f₅]
    exact hreply'.past_flag (by decide)
  have hlast' : last.Says .ack [] (x.figures.next + 1) (y.figures.next + 1) := by
    rw [← hnext, ← hexpects]
    exact hlast
  have hx₇ : x₇.figures.next = x.figures.next + 1 ∧ x₇.figures.expects = y.figures.next + 1 := by
    rw [f₇]
    exact ⟨hnext, hexpects⟩
  have hy₇ : y₇.figures.next = y.figures.next + 1 ∧ y₇.figures.expects = x.figures.next + 1 := by
    rw [g₇, g₆]
    exact ⟨hlast'.ack, hlast'.past_ack⟩
  have htwo : ∀ k l : UInt32, k + 1 + l + 1 = k + 2 + l := by
    intro k l
    grind
  refine .pure ⟨⟨s₇.state, hx₇.1.trans hy₇.2.symm, ?_⟩, t₇.state, hy₇.1.trans hx₇.2.symm, ?_⟩
  · rw [← htwo, ← hx.next]
    exact hx₇.1
  · rw [← htwo, ← hy.next]
    exact hy₇.1

/-- The figures of a connection that has done nothing yet. -/
theorem figures_opened (settings : Settings) (role : Role) (sink : Option Log.Sink) :
    (Connection.opened settings role sink).figures = ⟨settings.iss, settings.iss, 0, 0, {}⟩ := by
  cases sink <;> rfl

/-- A connection that has done nothing yet. -/
theorem stands_opened (settings : Settings) (role : Role) (sink : Option Log.Sink)
    (hs : sure → ∀ log ∈ sink, log.refused = []) :
    (Connection.opened settings role sink).Stands sure .listen none := by
  have hfree := Connection.opened_free settings role sink
  exact ⟨hfree.state, hfree.undone, hfree.balanced, hfree.flight,
    fun hsure => Connection.calm_opened settings role sink (hs hsure)⟩

/-- **The handshake** takes one number of either end, and brings both in agreement. -/
theorem agrees_handshake {a b : Connection} (ha : a.Stands sure .listen none)
    (hb : b.Stands sure .listen none) (hi : a.figures = ⟨i, i, 0, 0, {}⟩)
    (hj : b.figures = ⟨j, j, 0, 0, {}⟩) :
    Attains sure (handshake ⟨a, b⟩) fun p =>
      Agrees sure p.near p.far i 0 ∧ Agrees sure p.far p.near j 0 := by
  refine (ha.apply (.start .active) rfl).bind ?_
  rintro a₁ ⟨s₁, f₁⟩
  refine (hb.apply (.start .passive) rfl).bind ?_
  rintro b₁ ⟨t₁, g₁⟩
  refine (s₁.control .syn (by decide)).bind ?_
  rintro ⟨a₂, syn⟩ ⟨⟨s₂, f₂⟩, hsyn, wsyn⟩
  refine (t₁.accept hsyn.accepts wsyn (.inr rfl)).bind ?_
  rintro b₂ ⟨t₂, g₂⟩
  refine (t₂.apply (.arrived .syn) rfl).bind ?_
  rintro b₃ ⟨t₃, g₃⟩
  refine (t₃.control .synAck (by decide)).bind ?_
  rintro ⟨b₄, synAck⟩ ⟨⟨t₄, g₄⟩, hsynAck, wsynAck⟩
  refine (s₂.accept hsynAck.accepts wsynAck (.inl rfl)).bind ?_
  rintro a₃ ⟨s₃, f₃⟩
  refine (s₃.apply (.arrived .synAck) rfl).bind ?_
  rintro a₄ ⟨s₄, f₄⟩
  refine (s₄.control .ack (by decide)).bind ?_
  rintro ⟨a₅, ack⟩ ⟨⟨s₅, f₅⟩, hack, wack⟩
  refine (t₄.accept hack.accepts wack (.inl rfl)).bind ?_
  rintro b₅ ⟨t₅, g₅⟩
  refine (t₅.apply (.arrived .ack) rfl).bind ?_
  rintro b₆ ⟨t₆, g₆⟩
  have hsyn' : syn.header.seq = i := by
    rw [f₁, hi] at hsyn
    exact hsyn.seq
  have hsynAck' : synAck.Says .synAck [] j (i + 1) := by
    rw [g₃, g₂, g₁, hj] at hsynAck
    exact hsyn' ▸ hsynAck
  -- the SYN-ACK gives the calling end both numbers, and its ACK gives them back
  have hnext : a₄.figures.next = i + 1 := by
    rw [f₄, f₃]
    exact hsynAck'.ack
  have hexpects : a₄.figures.expects = j + 1 := by
    rw [f₄, f₃]
    exact hsynAck'.past_flag (by decide)
  have hack' : ack.Says .ack [] (i + 1) (j + 1) := by
    rw [← hnext, ← hexpects]
    exact hack
  have hb₆ : b₆.figures.next = j + 1 ∧ b₆.figures.expects = i + 1 ∧ b₆.figures.sentAck = i + 1 := by
    rw [g₆, g₅]
    refine ⟨hack'.ack, hack'.past_ack, ?_⟩
    rw [g₄, g₃, g₂]
    exact hsyn' ▸ rfl
  have ha₅ : a₅.figures.next = i + 1 ∧ a₅.figures.expects = j + 1 ∧ a₅.figures.sentAck = j + 1 := by
    rw [f₅]
    exact ⟨hnext, hexpects, hexpects⟩
  refine .pure ⟨⟨s₅, ?_, ?_, ?_⟩, ⟨t₆, ?_, ?_, ?_⟩⟩
  · exact ha₅.1.trans (UInt32.add_zero _).symm
  · exact hb₆.2.1.trans ha₅.1.symm
  · exact ha₅.2.2.trans ha₅.2.1.symm
  · exact hb₆.1.trans (UInt32.add_zero _).symm
  · exact ha₅.2.1.trans hb₆.1.symm
  · exact hb₆.2.2.trans hb₆.2.1.symm

/-- Something that one end has to say: what fits a data segment. -/
structure Remark where
  /-- The end that says it. -/
  sender : Side
  /-- What it says. -/
  payload : List UInt8
  nonempty : payload ≠ []
  fits : payload.length ≤ mss.toNat

/-- One end makes a remark, and the other one acknowledges it. -/
def remark (p : Both Connection) (r : Remark) : Except Fault (Both Connection × Traffic) := do
  let (x, y, t) ← exchange (p.get r.sender) (p.get r.sender.other) r.payload
  return ((p.set r.sender x).set r.sender.other y, t)

/-- Remarks are made one after the other. -/
def talk (p : Both Connection) : List Remark → Except Fault (Both Connection)
  | [] => return p
  | r :: rs => do
    let (p, _) ← remark p r
    talk p rs

/-- The number of bytes that one end says. -/
def volume (side : Side) (rs : List Remark) : Nat :=
  (rs.flatMap fun r => if r.sender = side then r.payload else []).length

/-- The dialogue of two fresh connections up to where one of them may close. -/
def hold (settings : Both Settings) (sinks : Both (Option Log.Sink)) (rs : List Remark) :
    Except Fault (Both Connection) := do
  let p ← handshake
    ⟨.opened settings.near .active sinks.near, .opened settings.far .passive sinks.far⟩
  talk p rs

/-- One of the two ends closes. -/
def part (p : Both Connection) (side : Side) : Except Fault (Both Connection) := do
  let (x, y) ← close (p.get side) (p.get side.other)
  return (p.set side x).set side.other y

/-- **Both ends agree** on the numbers of either, after so many bytes. -/
def Attuned (sure : Prop) (iss : Side → UInt32) (sent : Side → Nat) (p : Both Connection) : Prop :=
  ∀ side, Agrees sure (p.get side) (p.get side.other) (iss side) (sent side)

variable {p : Both Connection} {iss : Side → UInt32} {sent : Side → Nat}

theorem Attuned.remark (h : Attuned sure iss sent p) (r : Remark) :
    Attains sure (Dialogue.remark p r) fun o =>
      Attuned sure iss (fun side => sent side + if r.sender = side then r.payload.length else 0)
        o.1 ∧
      o.2.data.Says .data r.payload (p.get r.sender).nextSeq (p.get r.sender).expectedSeq ∧
      o.2.ack.Says .ack [] (p.get r.sender.other).nextSeq
        ((p.get r.sender).nextSeq + UInt32.ofNat r.payload.length) := by
  have hpeer := h r.sender.other
  rw [Side.other_other] at hpeer
  refine ((h r.sender).exchange hpeer r.nonempty r.fits).bind ?_
  rintro ⟨x, y, t⟩ ⟨hx, hy, hdata, hack⟩
  refine .pure ⟨fun side => ?_, hdata, hack⟩
  obtain ⟨sender, payload, hne, hlen⟩ := r
  cases sender <;> cases side <;> first | exact hx | exact hy

theorem volume_cons (side : Side) (r : Remark) (rs : List Remark) :
    volume side (r :: rs) =
      (if r.sender = side then r.payload.length else 0) + volume side rs := by
  rw [volume, List.flatMap_cons, List.length_append, apply_ite List.length, List.length_nil, volume]

theorem Attuned.talk (h : Attuned sure iss sent p) (rs : List Remark) :
    Attains sure (Dialogue.talk p rs)
      (Attuned sure iss fun side => sent side + volume side rs) := by
  induction rs generalizing p sent with
  | nil => exact .pure h
  | cons r rs ih =>
    refine (h.remark r).bind ?_
    rintro ⟨q, t⟩ ⟨hq, -, -⟩
    refine (ih hq).mono fun q' hq' side => ?_
    show Agrees sure _ _ _ (sent side + volume side (r :: rs))
    rw [volume_cons, ← Nat.add_assoc]
    exact hq' side

/-- No transfer log refuses a record. -/
def Willing (sinks : Both (Option Log.Sink)) : Prop :=
  ∀ side, ∀ log ∈ sinks.get side, log.refused = []

/-- **Sequence numbers agree**, whatever the initial numbers are and whatever the two ends say to
each other after the handshake. Either end's next number is what the other one expects: its initial
number, one for the SYN, and the bytes it has sent, modulo `2 ^ 32`. Whatever is said next, the data
carries the sender's next number and the one it expects, and its ACK the number after it. A close
begun by either end brings both to CLOSED, with their numbers still in agreement. Each of these
comes off unless a transfer log refuses a record. -/
theorem numbers_agree (settings : Both Settings) (sinks : Both (Option Log.Sink))
    (rs : List Remark) :
    Attains (Willing sinks) (hold settings sinks rs) fun p =>
      (∀ side, (p.get side).nextSeq = (p.get side.other).expectedSeq ∧
        (p.get side).nextSeq = (settings.get side).iss + 1 + UInt32.ofNat (volume side rs)) ∧
      (∀ r, Attains (Willing sinks) (remark p r) fun o =>
        o.2.data.kind = .data ∧ o.2.data.payload = r.payload ∧
        o.2.data.header.seq = (p.get r.sender).nextSeq ∧
        o.2.data.header.ack = (p.get r.sender).expectedSeq ∧
        o.2.ack.kind = .ack ∧
        o.2.ack.header.ack = o.2.data.header.seq + UInt32.ofNat o.2.data.payload.length) ∧
      ∀ closer, Attains (Willing sinks) (part p closer) fun q =>
        ∀ side, (q.get side).state = .closed ∧
          (q.get side).nextSeq = (q.get side.other).expectedSeq ∧
          (q.get side).nextSeq = (settings.get side).iss + 2 + UInt32.ofNat (volume side rs) := by
  have hnear : (Connection.opened settings.near .active sinks.near).Stands (Willing sinks) .listen
      none := stands_opened _ _ _ fun hs => hs .near
  have hfar : (Connection.opened settings.far .passive sinks.far).Stands (Willing sinks) .listen
      none := stands_opened _ _ _ fun hs => hs .far
  have hopen := agrees_handshake hnear hfar (figures_opened _ _ _) (figures_opened _ _ _)
  refine hopen.bind fun p₀ h₀ => ?_
  have hattuned :
      Attuned (Willing sinks) (fun side => (settings.get side).iss) (fun _ => 0) p₀ := by
    intro side
    cases side
    · exact h₀.1
    · exact h₀.2
  refine (hattuned.talk rs).mono fun p hall => ?_
  have h : ∀ side, Agrees (Willing sinks) (p.get side) (p.get side.other) (settings.get side).iss
      (volume side rs) := by
    intro side
    exact Nat.zero_add (volume side rs) ▸ hall side
  refine ⟨fun side => ⟨(h side).expected.symm, (h side).next⟩, fun r => ?_, fun closer => ?_⟩
  · refine (hall.remark r).mono fun o ho => ?_
    obtain ⟨-, hdata, hack⟩ := ho
    refine ⟨hdata.kind, hdata.payload, hdata.seq, hdata.ack, hack.kind, ?_⟩
    rw [hdata.seq, hdata.payload]
    exact hack.ack
  · have hpeer := h closer.other
    rw [Side.other_other] at hpeer
    refine ((h closer).close hpeer).bind ?_
    rintro ⟨x, y⟩ ⟨hx, hy⟩
    refine .pure fun side => ?_
    cases closer <;> cases side <;> first | exact hx | exact hy

/-- Three bytes take the near end's numbers past `2 ^ 32`. The far end keeps a transfer log. -/
theorem numbers_agree_wrap :
    let sinks : Both (Option Log.Sink) := ⟨none, some {}⟩
    let rs : List Remark := [⟨.near, [1, 2, 3], nofun, by decide⟩, ⟨.far, [4], nofun, by decide⟩]
    Willing sinks ∧
    ∃ p, hold ⟨{ iss := 4294967294 }, { iss := 7 }⟩ sinks rs = .ok p ∧
      (p.get .near).nextSeq = 2 ∧ (p.get .far).expectedSeq = 2 := by
  intro sinks rs
  have hs : Willing sinks := by
    intro side log hlog
    cases side with
    | near => cases hlog
    | far =>
      cases hlog
      rfl
  have hagree := numbers_agree ⟨{ iss := 4294967294 }, { iss := 7 }⟩ sinks rs
  obtain ⟨p, hp⟩ := hagree.succeeds hs
  obtain ⟨hpeer, hnext⟩ := (hagree.holds p hp).1 .near
  have htwo : (p.get .near).nextSeq = 2 := hnext.trans (by decide)
  exact ⟨hs, p, hp, htwo, hpeer.symm.trans htwo⟩

end Dialogue

end StopWait
