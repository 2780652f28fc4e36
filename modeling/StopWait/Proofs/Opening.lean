import StopWait.Proofs.Figures
import StopWait.Proofs.Handover

/-!
# The opening handshake

Two sessions on their way to each other, as long as nothing is lost: what each of them is in the
middle of, the segments that wait for it, and the sequence numbers that either knows. Every stage
has a rank, which sinks with every turn.

* `Party.Steps`: a turn of a party that does not fail. `Party.Steps.of_sending`, `of_awaiting`,
  `of_receiving`: what it comes to at a stage.
* `Dialing`: **the two parties before the handshake is over.**
* `Opens`: **a party that has all it needs to open**, whatever else waits for it.
* `Dialing.active`, `Dialing.passive`, `Opens.step`: their turns.
-/

namespace StopWait

/-- What a segment says: its kind, its payload and its numbers. -/
structure Segment.Says (s : Segment) (k : Kind) (payload : List UInt8) (seq ack : UInt32) :
    Prop where
  control : s.header.control = k.control
  payload : s.payload = payload
  seq : s.header.seq = seq
  ack : s.header.ack = ack

namespace Segment.Says

variable {s : Segment} {k : Kind} {payload : List UInt8} {seq ack : UInt32}

/-- The sequence number after a segment. -/
theorem past (h : s.Says k payload seq ack) :
    s.header.seq + s.seqLen = seq + (UInt32.ofNat payload.length +
      (if k.control.syn then 1 else 0) + (if k.control.fin then 1 else 0)) := by
  rw [Segment.seqLen, h.seq, h.payload, h.control]

/-- A SYN or a FIN takes one number. -/
theorem past_flag (h : s.Says k [] seq ack) (hk : k.control.syn ≠ k.control.fin) :
    s.header.seq + s.seqLen = seq + 1 := by
  rw [h.past]
  cases k <;> first | exact absurd rfl hk | simp [Kind.control]

/-- An ACK takes none. -/
theorem past_ack (h : s.Says .ack [] seq ack) : s.header.seq + s.seqLen = seq := by
  rw [h.past]
  simp [Kind.control]

/-- Data takes one for each byte. -/
theorem past_data (h : s.Says .data payload seq ack) :
    s.header.seq + s.seqLen = seq + UInt32.ofNat payload.length := by
  rw [h.past]
  simp [Kind.control]

theorem accepts (h : s.Says k payload seq ack) : k.accepts s.header.control = true := by
  rw [h.control]
  cases k <;> rfl

end Segment.Says

namespace Session

variable {c c' : Connection} {x x' : Stage} {mail mail' sent rest : List Segment} {call : Call}
  {r : Response} {s : Segment} {w : Wait} {n e i j : UInt32} {k : Nat}

/-- What a party sends says what its numbers say. -/
theorem says_reissue (kind : Kind) (payload : List UInt8) :
    (c.reissue kind payload).Says kind payload c.figures.sentSeq c.figures.sentAck :=
  ⟨rfl, rfl, rfl, rfl⟩

/-- A segment that has been sent leaves the numbers. -/
theorem count_posts (f : Figures) (m : Message) (bytes : List UInt8) (n : Nat) :
    ((Stage.sending m bytes).turn (.sent n)).1.foldl Figures.count f = f := by
  simp only [Stage.turn]
  split
  · rfl
  · cases m <;> rfl

/-- **A turn of a party that does not fail**, and what it makes of the party's numbers. -/
structure Party.Steps (p : Party) (call : Call) (r : Response) (p' : Party)
    (sent : List Segment) : Prop where
  goes : Goes p.connection p.stage p.mail call r p'.stage p'.mail sent
  regular : ∀ s ∈ p.mail, s.Regular
  count : p'.connection.figures = (p.stage.turn r).1.foldl Figures.count p.connection.figures
  whole : sent = p.out
  sound : ∀ e, p'.stage ≠ .failed e

/-- A session that rests does not take a turn. -/
theorem Party.Steps.rests_eq_false {p p' : Party} (hs : p.Steps call r p' sent) :
    p.stage.rests = false := by
  obtain ⟨c, x, mail⟩ := p
  obtain ⟨c', x', mail'⟩ := p'
  have hg := hs.goes
  cases hg with
  | fails hp => exact Stage.rests_of_suspended hp
  | _ => rfl

theorem Party.Steps.ne_ended {p p' : Party} (hs : p.Steps call r p' sent) : p.stage ≠ .ended := by
  intro hx
  have hrests := hs.rests_eq_false
  rw [hx] at hrests
  cases hrests

/-- A segment that was awaited brings the number that the peer expects, unless it is a SYN. -/
theorem count_take_next (hw : w ≠ .syn) (f : Figures) :
    ((w.take s).1.foldl Figures.count f).next = s.header.ack := by
  cases w with
  | syn => exact absurd rfl hw
  | peerFin =>
    simp only [Wait.take, Wait.after, Arrival.begin]
    split <;> rfl
  | _ => rfl

/-- What is expected next comes after a segment that was awaited. -/
theorem count_take_expects (w : Wait) (s : Segment) (f : Figures) :
    ((w.take s).1.foldl Figures.count f).expects = s.header.seq + s.seqLen := by
  cases w with
  | peerFin =>
    simp only [Wait.take, Wait.after, Arrival.begin]
    split <;> rfl
  | _ => rfl

section steps

variable {p' : Party} {m : Message} {bytes : List UInt8}

/-- **A party that sends** hands its segment to the peer, and goes on. -/
theorem Party.Steps.of_sending (hs : Steps ⟨c, .sending m bytes, mail⟩ call r p' sent) :
    sent = [c.reissue m.kind (m.payload bytes)] ∧
      ∃ d, p' = ⟨d, (m.after bytes).2, mail⟩ ∧ d.figures = c.figures := by
  obtain ⟨d, x', mail'⟩ := p'
  obtain ⟨hg, -, hcount, rfl, hsound⟩ := hs
  -- a party that fails sends nothing
  cases hg with
  | posts => exact ⟨rfl, d, rfl, hcount.trans (count_posts _ _ _ _)⟩

/-- **A party that awaits a segment** receives the one that waits, and does not go on without. -/
theorem Party.Steps.of_awaiting (hs : Steps ⟨c, .awaiting w, mail⟩ call r p' sent) :
    mail ≠ [] ∧ sent = [] ∧ ∃ d, p' = ⟨d, .receiving w, mail⟩ ∧ d.figures = c.figures := by
  obtain ⟨d, x', mail'⟩ := p'
  obtain ⟨hg, -, hcount, -, hsound⟩ := hs
  cases hg with
  | fails => exact absurd rfl (hsound _)
  | awaits hm => exact ⟨hm, rfl, d, rfl, hcount⟩

/-- **A party that receives an awaited segment** takes it in, and its numbers. -/
theorem Party.Steps.of_receiving (hs : Steps ⟨c, .receiving w, s :: mail⟩ call r p' sent) :
    sent = [] ∧ ∃ d, p' = ⟨d, (w.after s.payload).2, mail⟩ ∧
      d.figures = (w.take s).1.foldl Figures.count c.figures := by
  obtain ⟨d, x', mail'⟩ := p'
  obtain ⟨hg, hreg, hcount, -, hsound⟩ := hs
  cases hg with
  | fails => exact absurd rfl (hsound _)
  | accepts =>
    simp only [turn_receiving (hreg s List.mem_cons_self)] at hcount
    exact ⟨rfl, d, rfl, hcount⟩

end steps

/-- **A party that has all it needs to open**, with what else waits for it. It will send `n` next
and expects `e`. -/
inductive Opens (n e : UInt32) (rest : List Segment) : Party → Nat → Prop where
  | awaits {c : Connection} {s : Segment} (hs : s.Says .ack [] e n) :
    Opens n e rest ⟨c, .awaiting .opening, s :: rest⟩ 3
  | receives {c : Connection} {s : Segment} (hs : s.Says .ack [] e n) :
    Opens n e rest ⟨c, .receiving .opening, s :: rest⟩ 2
  | unblocks {c : Connection} {bytes : List UInt8} (hn : c.figures.next = n)
    (he : c.figures.expects = e) : Opens n e rest ⟨c, .unblocking bytes, rest⟩ 1
  | idles {c : Connection} (hn : c.figures.next = n) (he : c.figures.expects = e) :
    Opens n e rest ⟨c, .idle, rest⟩ 0

variable {p p' a a' b b' : Party}

theorem Opens.receive (h : Opens n e rest p k) (segments : List Segment) :
    Opens n e (rest ++ segments) (p.receive segments) k := by
  cases h with
  | awaits hs => exact .awaits hs
  | receives hs => exact .receives hs
  | unblocks hn he => exact .unblocks hn he
  | idles hn he => exact .idles hn he

/-- **A party that is not open yet opens further.** -/
theorem Opens.step (h : Opens n e rest p k) (hk : k ≠ 0) (hs : p.Steps call r p' sent) :
    sent = [] ∧ ∃ m < k, Opens n e rest p' m := by
  cases h with
  | awaits hsaid =>
    obtain ⟨-, rfl, d, rfl, -⟩ := hs.of_awaiting
    exact ⟨rfl, 2, by decide, .receives hsaid⟩
  | receives hsaid =>
    obtain ⟨rfl, d, rfl, hcount⟩ := hs.of_receiving
    -- the ACK brings the numbers that the peer has
    refine ⟨rfl, 1, by decide, .unblocks ?_ ?_⟩
    · rw [hcount, count_take_next (w := .opening) (by simp), hsaid.ack]
    · rw [hcount, count_take_expects, hsaid.past_ack]
  | unblocks hn he =>
    obtain ⟨c', x', mail'⟩ := p'
    obtain ⟨hg, -, hcount, -, hsound⟩ := hs
    cases hg with
    | fails => exact absurd rfl (hsound _)
    | opens => exact ⟨rfl, 0, by decide, .idles (by rw [hcount]; exact hn) (by rw [hcount]; exact he)⟩
  | idles => exact absurd rfl hk

/-- The calling party, whose initial number is `i`, with what it has sent. -/
inductive Calls (i : UInt32) : Party → List Segment → Nat → Prop where
  | ready {c : Connection} (hr : c.role = .active) (hi : c.figures.iss = i) :
    Calls i ⟨c, .ready, []⟩ [] 2
  | sends {c : Connection} {bytes : List UInt8} (hq : c.figures.sentSeq = i) :
    Calls i ⟨c, .sending .syn bytes, []⟩ [] 1
  | sent {c : Connection} {s : Segment} {ack : UInt32} (hs : s.Says .syn [] i ack) :
    Calls i ⟨c, .awaiting .synAck, []⟩ [s] 0

/-- The called party, whose initial number is `j`, with what it has received. -/
inductive Listens (j : UInt32) : Party → List Segment → Nat → Prop where
  | ready {c : Connection} {mail : List Segment} (hr : c.role = .passive)
    (hj : c.figures.iss = j) : Listens j ⟨c, .ready, mail⟩ mail 1
  | awaits {c : Connection} {mail : List Segment} (hj : c.figures.iss = j) :
    Listens j ⟨c, .awaiting .syn, mail⟩ mail 0

/-- **The two parties before the handshake is over**, the calling one first. -/
inductive Dialing (i j : UInt32) : Party → Party → Nat → Prop where
  | meets {a b : Party} {mail : List Segment} {m n : Nat} (ha : Calls i a mail m)
    (hb : Listens j b mail n) : Dialing i j a b (24 + m + n)
  | hears {c d : Connection} {s : Segment} {ack : UInt32} (hs : s.Says .syn [] i ack)
    (hj : d.figures.iss = j) :
    Dialing i j ⟨c, .awaiting .synAck, []⟩ ⟨d, .receiving .syn, [s]⟩ 23
  | replies {c d : Connection} {bytes : List UInt8} (hq : d.figures.sentSeq = j)
    (ha : d.figures.sentAck = i + 1) :
    Dialing i j ⟨c, .awaiting .synAck, []⟩ ⟨d, .sending .synAck bytes, []⟩ 22
  | replied {c d : Connection} {s : Segment} (hs : s.Says .synAck [] j (i + 1)) :
    Dialing i j ⟨c, .awaiting .synAck, [s]⟩ ⟨d, .awaiting .opening, []⟩ 21
  | heard {c d : Connection} {s : Segment} (hs : s.Says .synAck [] j (i + 1)) :
    Dialing i j ⟨c, .receiving .synAck, [s]⟩ ⟨d, .awaiting .opening, []⟩ 20
  | confirms {c d : Connection} {bytes : List UInt8} (hn : c.figures.next = i + 1)
    (he : c.figures.expects = j + 1) (hq : c.figures.sentSeq = i + 1)
    (ha : c.figures.sentAck = j + 1) :
    Dialing i j ⟨c, .sending .openAck bytes, []⟩ ⟨d, .awaiting .opening, []⟩ 19

/-- **A turn of the calling party.** After the last one, both parties have all that they need. -/
theorem Dialing.active (h : Dialing i j a b k) (hs : a.Steps call r a' sent) :
    (∃ m < k, Dialing i j a' (b.receive sent) m) ∨
      ∃ m n, 14 + m + n < k ∧ Opens (i + 1) (j + 1) [] a' m ∧
        Opens (j + 1) (i + 1) [] (b.receive sent) n := by
  cases h with
  | meets ha hb =>
    cases ha with
    | ready => cases hs.rests_eq_false
    | @sends c bytes hq =>
      obtain ⟨rfl, d, rfl, -⟩ := hs.of_sending
      -- the SYN reaches the called party, whether it has begun or not
      have hs : (c.reissue .syn []).Says .syn [] i c.figures.sentAck := hq ▸ says_reissue .syn []
      cases hb with
      | ready hr hj => exact .inl ⟨25, by decide, .meets (.sent hs) (.ready hr hj)⟩
      | awaits hj => exact .inl ⟨24, by decide, .meets (.sent hs) (.awaits hj)⟩
    | sent => exact absurd rfl hs.of_awaiting.1
  | hears | replies => exact absurd rfl hs.of_awaiting.1
  | replied hsaid =>
    obtain ⟨-, rfl, d, rfl, -⟩ := hs.of_awaiting
    exact .inl ⟨20, by decide, .heard hsaid⟩
  | heard hsaid =>
    obtain ⟨rfl, d, rfl, hcount⟩ := hs.of_receiving
    -- the SYN-ACK brings the number of the called party
    have hexpects : d.figures.expects = j + 1 := by
      rw [hcount, count_take_expects, hsaid.past_flag (by decide)]
    have hnext : d.figures.next = i + 1 := by
      rw [hcount, count_take_next (w := .synAck) (by simp), hsaid.ack]
    refine .inl ⟨19, by decide, .confirms hnext hexpects ?_ ?_⟩
    · rw [← hnext, hcount]
      rfl
    · rw [← hexpects, hcount]
      rfl
  | @confirms c d bytes hn he hq ha =>
    obtain ⟨rfl, c', rfl, hcount⟩ := hs.of_sending
    -- the last segment of the handshake: both parties have all they need
    have hs : (c.reissue .ack []).Says .ack [] (i + 1) (j + 1) := hq ▸ ha ▸ says_reissue .ack []
    exact .inr ⟨1, 3, by decide, .unblocks (hcount ▸ hn) (hcount ▸ he), .awaits hs⟩

/-- **A turn of the called party.** -/
theorem Dialing.passive (h : Dialing i j a b k) (hs : b.Steps call r b' sent) :
    ∃ m < k, Dialing i j (a.receive sent) b' m := by
  cases h with
  | meets ha hb =>
    cases hb with
    | ready => cases hs.rests_eq_false
    | awaits hj =>
      obtain ⟨hm, rfl, d, rfl, hcount⟩ := hs.of_awaiting
      cases ha with
      | ready | sends => exact absurd rfl hm
      | sent hsaid => exact ⟨23, by decide, .hears hsaid (hcount ▸ hj)⟩
  | hears hsaid hj =>
    obtain ⟨rfl, d, rfl, hcount⟩ := hs.of_receiving
    -- the SYN brings the number of the calling party
    refine ⟨22, by decide, .replies ?_ ?_⟩
    · rw [hcount]
      exact hj
    · rw [hcount]
      exact congrArg (· + 1) hsaid.seq
  | @replies c d bytes hq ha =>
    obtain ⟨rfl, d', rfl, -⟩ := hs.of_sending
    have hs : (d.reissue .synAck []).Says .synAck [] j (i + 1) :=
      hq ▸ ha ▸ says_reissue .synAck []
    exact ⟨21, by decide, .replied hs⟩
  | replied | heard | confirms => exact absurd rfl hs.of_awaiting.1

/-- **The calling party begins.** -/
theorem Dialing.active_begins (h : Dialing i j a b k) (hx : a.stage = .ready)
    (hfree : a.connection.Free .listen)
    (hc : carry a.connection (opening a.connection.role) = (c', x')) :
    ∃ m < k, Dialing i j ⟨c', x', a.mail⟩ b m := by
  have hstage := carry_opening hfree
  rw [hc] at hstage
  cases h with
  | meets ha hb =>
    cases ha with
    | ready hr hi =>
      simp only [hr, true_and, reduceCtorEq, false_and, or_false] at hstage
      subst hstage
      have hcount := figures_carry hc nofun
      rw [hr] at hcount
      refine ⟨_, ?_, .meets (.sends ?_) hb⟩
      · omega
      · rw [hcount]
        exact hi
    | _ => cases hx
  | _ => cases hx

/-- **The called party begins.** -/
theorem Dialing.passive_begins (h : Dialing i j a b k) (hx : b.stage = .ready)
    (hfree : b.connection.Free .listen)
    (hc : carry b.connection (opening b.connection.role) = (c', x')) :
    ∃ m < k, Dialing i j a ⟨c', x', b.mail⟩ m := by
  have hstage := carry_opening hfree
  rw [hc] at hstage
  cases h with
  | meets ha hb =>
    cases hb with
    | ready hr hj =>
      simp only [hr, true_and, reduceCtorEq, false_and, false_or] at hstage
      subst hstage
      have hcount := figures_carry hc nofun
      rw [hr] at hcount
      refine ⟨_, ?_, .meets ha (.awaits ?_)⟩
      · omega
      · rw [hcount]
        exact hj
    | _ => cases hx
  | _ => cases hx

/-- Nothing is delivered before the handshake is over. -/
theorem Dialing.ne_delivering (h : Dialing i j a b k) (arr : Arrival) (bytes : List UInt8) :
    a.stage ≠ .delivering arr bytes ∧ b.stage ≠ .delivering arr bytes := by
  cases h with
  | meets ha hb => cases ha <;> cases hb <;> exact ⟨nofun, nofun⟩
  | _ => exact ⟨nofun, nofun⟩

theorem Opens.ne_ended (h : Opens n e rest p k) : p.stage ≠ .ended := by
  cases h <;> nofun

theorem Dialing.ne_ended (h : Dialing i j a b k) : a.stage ≠ .ended ∧ b.stage ≠ .ended := by
  cases h with
  | meets ha hb => cases ha <;> cases hb <;> exact ⟨nofun, nofun⟩
  | _ => exact ⟨nofun, nofun⟩

/-- **A party that what waits for it suits.** -/
structure Party.Apt (p : Party) : Prop where
  awaited : ∀ w, p.stage = .receiving w →
    ∃ s rest, p.mail = s :: rest ∧ w.kind.accepts s.header.control = true
  announced : p.stage = .reading → p.mail ≠ []
  running : ∀ e, p.stage ≠ .failed e

/-- Whether a stage takes no segment in, and is no failure. -/
def Stage.takesNothing : Stage → Bool
  | .receiving _ | .reading | .failed _ => false
  | _ => true

theorem Party.Apt.of_stage (h : p.stage.takesNothing = true) : p.Apt := by
  constructor
  · intro w hx
    rw [hx] at h
    cases h
  · intro hx
    rw [hx] at h
    cases h
  · intro e hx
    rw [hx] at h
    cases h

theorem Party.Apt.of_accepts (hs : w.kind.accepts s.header.control = true) :
    Party.Apt ⟨c, .receiving w, s :: mail⟩ := by
  refine ⟨fun w' h => ?_, nofun, nofun⟩
  cases h
  exact ⟨s, mail, rfl, hs⟩

theorem Opens.apt (h : Opens n e rest p k) : p.Apt := by
  cases h with
  | receives hs => exact .of_accepts hs.accepts
  | _ => exact .of_stage rfl

theorem Dialing.apt (h : Dialing i j a b k) : a.Apt ∧ b.Apt := by
  cases h with
  | meets ha hb =>
    constructor
    · cases ha <;> exact .of_stage rfl
    · cases hb <;> exact .of_stage rfl
  | hears hs => exact ⟨.of_stage rfl, .of_accepts hs.accepts⟩
  | heard hs => exact ⟨.of_accepts hs.accepts, .of_stage rfl⟩
  | _ => exact ⟨.of_stage rfl, .of_stage rfl⟩

/-- Whether a party can go on by itself, or with what waits for it. -/
def Party.Stirs (p : Party) : Prop :=
  match p.stage with
  | .failed _ | .ended => False
  | .idle | .reading | .awaiting _ | .receiving _ => p.mail ≠ []
  | _ => True

theorem Party.Stirs.ne_ended {p : Party} (hs : p.Stirs) : p.stage ≠ .ended := by
  intro hx
  rw [Stirs, hx] at hs
  exact hs

theorem Opens.stirs (h : Opens n e rest p k) : p.Stirs ∨ rest = [] ∧ k = 0 := by
  cases h with
  | awaits | receives => exact .inl nofun
  | unblocks => exact .inl trivial
  | idles => exact (Classical.em (rest = [])).elim (fun hr => .inr ⟨hr, rfl⟩) .inl

theorem Dialing.stirs (h : Dialing i j a b k) : a.Stirs ∨ b.Stirs := by
  cases h with
  | meets ha hb =>
    cases ha with
    | ready | sends => exact .inl trivial
    -- the SYN waits for the called party, which may have to begin first
    | sent =>
      cases hb with
      | ready => exact .inr trivial
      | awaits => exact .inr nofun
  | hears => exact .inr nofun
  | replies => exact .inr trivial
  | replied | heard => exact .inl nofun
  | confirms => exact .inl trivial

end Session

end StopWait
