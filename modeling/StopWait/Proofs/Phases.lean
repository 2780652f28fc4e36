import StopWait.Proofs.Opening

/-!
# The phases of a transfer

One party, the writer, sends data and then closes, and the other one answers. Stop-and-wait leaves
few things that the two can be in the middle of together, and these are the phases. A phase has a
rank, which sinks with every turn, unless the writer has read bytes to send.

* `Party.Steps.of_data`, `Party.Steps.of_fin`: the turns that read data and a FIN.
* `Moving`: **the phases after the handshake.**
* `Phase`: all phases, whichever party called.
* `Phase.writer`, `Phase.other`: their turns.
* `Phase.stirs`: in every phase but the last one some party has something to do.
-/

namespace StopWait.Session

open Link (readBytes deliveredBytes)

/-- The writer's part of the close, with what the other party has sent after its first
acknowledgment. -/
inductive Leaves (mail : List Segment) : Party → Nat → Prop where
  | awaits {c : Connection} {s : Segment} (hs : s.header.control = Kind.ack.control) :
    Leaves mail ⟨c, .awaiting .fin, s :: mail⟩ 5
  | receives {c : Connection} {s : Segment} (hs : s.header.control = Kind.ack.control) :
    Leaves mail ⟨c, .receiving .fin, s :: mail⟩ 4
  | awaitsFin {c : Connection} : Leaves mail ⟨c, .awaiting .peerFin, mail⟩ 3

/-- The other party's part of the close, with what it has sent after its first acknowledgment. -/
inductive Parts (k e : UInt32) : Party → List Segment → Nat → Prop where
  | signals {d : Connection} {bytes : List UInt8} (hn : d.figures.next = e)
    (ha : d.figures.sentAck = k + 1) : Parts k e ⟨d, .signalling bytes, []⟩ [] 4
  | sends {d : Connection} {bytes : List UInt8} (hq : d.figures.sentSeq = e)
    (ha : d.figures.sentAck = k + 1) : Parts k e ⟨d, .sending .lastFin bytes, []⟩ [] 3
  | sent {d : Connection} {s : Segment} (hs : s.Says .fin [] e (k + 1)) :
    Parts k e ⟨d, .awaiting .lastFin, []⟩ [s] 2

/-- **The phases after the handshake**, the writer first. What is acknowledged ends before `k`, and
the other party sends `e` next. -/
inductive Moving (k e : UInt32) : Party → Party → Nat → Prop where
  | opened {a b : Party} {m n : Nat} (ha : Opens k e [] a m) (hb : Opens e k [] b n) :
    Moving k e a b (14 + m + n)
  | fetches {c : Connection} {b : Party} {n : Nat} (hn : c.figures.next = k)
    (hb : Opens e k [] b n) : Moving k e ⟨c, .fetching, []⟩ b (13 + n)
  | sends {c : Connection} {b : Party} {bytes : List UInt8} {n : Nat}
    (hq : c.figures.sentSeq = k) (hb : Opens e k [] b n) :
    Moving k e ⟨c, .sending .data bytes, []⟩ b (21 + n)
  | sent {c : Connection} {b : Party} {s : Segment} {bytes : List UInt8} {ack : UInt32} {n : Nat}
    (hs : s.Says .data bytes k ack) (hb : Opens e k [s] b n) :
    Moving k e ⟨c, .awaiting .data, []⟩ b (20 + n)
  | reads {c d : Connection} {s : Segment} {bytes : List UInt8} {ack : UInt32}
    (hs : s.Says .data bytes k ack) (hn : d.figures.next = e) :
    Moving k e ⟨c, .awaiting .data, []⟩ ⟨d, .reading, [s]⟩ 19
  | delivers {c d : Connection} {bytes : List UInt8} (hn : d.figures.next = e)
    (he : d.figures.expects = k + UInt32.ofNat bytes.length) :
    Moving k e ⟨c, .awaiting .data, []⟩ ⟨d, .delivering .data bytes, []⟩ 18
  | acks {c d : Connection} {bytes : List UInt8} (hn : d.figures.next = e)
    (he : d.figures.expects = k) (hq : d.figures.sentSeq = e) (ha : d.figures.sentAck = k) :
    Moving k e ⟨c, .awaiting .data, []⟩ ⟨d, .sending .dataAck bytes, []⟩ 17
  | acked {c d : Connection} {s : Segment} (hs : s.Says .ack [] e k) (hn : d.figures.next = e)
    (he : d.figures.expects = k) : Moving k e ⟨c, .awaiting .data, [s]⟩ ⟨d, .idle, []⟩ 16
  | takes {c d : Connection} {s : Segment} (hs : s.Says .ack [] e k) (hn : d.figures.next = e)
    (he : d.figures.expects = k) : Moving k e ⟨c, .receiving .data, [s]⟩ ⟨d, .idle, []⟩ 15
  | closes {c : Connection} {b : Party} {bytes : List UInt8} {n : Nat}
    (hq : c.figures.sentSeq = k) (hb : Opens e k [] b n) :
    Moving k e ⟨c, .sending .fin bytes, []⟩ b (13 + n)
  | closed {c : Connection} {b : Party} {s : Segment} {ack : UInt32} {n : Nat}
    (hs : s.Says .fin [] k ack) (hb : Opens e k [s] b n) :
    Moving k e ⟨c, .awaiting .fin, []⟩ b (12 + n)
  | hears {c d : Connection} {s : Segment} {ack : UInt32} (hs : s.Says .fin [] k ack)
    (hn : d.figures.next = e) : Moving k e ⟨c, .awaiting .fin, []⟩ ⟨d, .reading, [s]⟩ 11
  | bows {c d : Connection} {bytes : List UInt8} (hn : d.figures.next = e)
    (ha : d.figures.sentAck = k + 1) :
    Moving k e ⟨c, .awaiting .fin, []⟩ ⟨d, .sending .peerFinAck bytes, []⟩ 10
  | parts {a b : Party} {mail : List Segment} {m n : Nat} (ha : Leaves mail a m)
    (hb : Parts k e b mail n) : Moving k e a b (m + n)
  | heard {c d : Connection} {s : Segment} (hs : s.Says .fin [] e (k + 1)) :
    Moving k e ⟨c, .receiving .peerFin, [s]⟩ ⟨d, .awaiting .lastFin, []⟩ 4
  | thanks {c d : Connection} {bytes : List UInt8} (hn : c.figures.next = k + 1)
    (he : c.figures.expects = e + 1) (hq : c.figures.sentSeq = k + 1)
    (ha : c.figures.sentAck = e + 1) :
    Moving k e ⟨c, .sending .closeAck bytes, []⟩ ⟨d, .awaiting .lastFin, []⟩ 3
  | left {c d : Connection} {s : Segment} (hn : c.figures.next = k + 1)
    (he : c.figures.expects = e + 1) (hs : s.Says .ack [] (k + 1) (e + 1)) :
    Moving k e ⟨c, .ended, []⟩ ⟨d, .awaiting .lastFin, [s]⟩ 2
  | last {c d : Connection} {s : Segment} (hn : c.figures.next = k + 1)
    (he : c.figures.expects = e + 1) (hs : s.Says .ack [] (k + 1) (e + 1)) :
    Moving k e ⟨c, .ended, []⟩ ⟨d, .receiving .lastFin, [s]⟩ 1
  | gone {c d : Connection} (hn : c.figures.next = k + 1) (he : c.figures.expects = e + 1)
    (hn' : d.figures.next = e + 1) (he' : d.figures.expects = k + 1) :
    Moving k e ⟨c, .ended, []⟩ ⟨d, .ended, []⟩ 0

variable {c c' : Connection} {x x' : Stage} {mail mail' sent rest : List Segment} {call : Call}
  {r : Response} {s : Segment} {k e i j : UInt32} {n m : Nat} {a a' b b' p p' : Party}

/-- Bytes that are read are sent at once. -/
theorem count_fetch {bytes : List UInt8} (hne : bytes ≠ []) (f : Figures) :
    (Stage.fetching.turn (.bytes bytes)).1.foldl Figures.count f =
      f.count (.segment .data (bytes.take mss.toNat)) := by
  have hmss : mss.toNat ≠ 0 := by decide
  have htake : ¬ (bytes.take mss.toNat).isEmpty = true := by
    simp [List.isEmpty_iff, List.take_eq_nil_iff, hne, hmss]
  simp only [Stage.turn, fetchTurn, if_neg htake]
  rfl

/-- Data that comes in is noted, and acknowledged later. -/
theorem count_data (hs : s.header.control = Kind.data.control) (hne : s.payload ≠ [])
    (f : Figures) : (arrival s).1.foldl Figures.count f = f.receive s := by
  have hfin : ¬ s.header.control.fin = true := by rw [hs]; decide
  have hpay : ¬ s.payload.isEmpty = true := by simpa using hne
  simp only [arrival, if_neg hfin, if_neg hpay, Arrival.begin]
  rfl

/-- A FIN that comes in is acknowledged at once. -/
theorem count_fin (hs : s.header.control = Kind.fin.control) (hnil : s.payload = [])
    (f : Figures) :
    (arrival s).1.foldl Figures.count f = (f.receive s).count (.segment .ack []) := by
  have hfin : s.header.control.fin = true := by rw [hs]; decide
  rw [arrival, if_pos hfin, hnil]
  rfl

/-- **A party that reads data** hands it over next, and its numbers are past it. -/
theorem Party.Steps.of_data (hs : Steps ⟨c, .reading, s :: mail⟩ call r p' sent)
    (hd : s.header.control = Kind.data.control) :
    sent = [] ∧ ∃ d, p' = ⟨d, .delivering .data s.payload, mail⟩ ∧
      d.figures = c.figures.receive s := by
  obtain ⟨d, x', mail'⟩ := p'
  obtain ⟨hg, hreg, hcount, -, hsound⟩ := hs
  have hs : s.Regular := hreg s List.mem_cons_self
  cases hg with
  | fails => exact absurd rfl (hsound _)
  | drops hne => exact absurd hd hne
  | takesFin hf => cases hd.symm.trans hf
  | takes =>
    simp only [turn_reading hs, count_data hd (hs.payload_ne_nil hd)] at hcount
    exact ⟨rfl, d, rfl, hcount⟩

/-- **A party that reads a FIN** acknowledges it next. -/
theorem Party.Steps.of_fin (hs : Steps ⟨c, .reading, s :: mail⟩ call r p' sent)
    (hf : s.header.control = Kind.fin.control) (hnil : s.payload = []) :
    sent = [] ∧ ∃ d, p' = ⟨d, .sending .peerFinAck [], mail⟩ ∧
      d.figures = (c.figures.receive s).count (.segment .ack []) := by
  obtain ⟨d, x', mail'⟩ := p'
  obtain ⟨hg, hreg, hcount, -, hsound⟩ := hs
  have hs : s.Regular := hreg s List.mem_cons_self
  cases hg with
  | fails => exact absurd rfl (hsound _)
  | drops _ hfin =>
    rw [hf] at hfin
    cases hfin
  | takes hd => cases hd.symm.trans hf
  | takesFin =>
    simp only [turn_reading hs, count_fin hf hnil] at hcount
    exact ⟨rfl, d, rfl, hcount⟩

/-- A party that is open does not go on by itself while its application is silent. -/
theorem Party.Steps.not_of_idle (hs : Steps ⟨c, .idle, []⟩ call r p' sent) :
    r = .event .appData ∨ r = .event .appCloseRequested := by
  obtain ⟨d, x', mail'⟩ := p'
  obtain ⟨hg, -, -, -, hsound⟩ := hs
  cases hg with
  | fails => exact absurd rfl (hsound _)
  | hears hm => exact absurd rfl hm
  | fetches => exact .inl rfl
  | closes => exact .inr rfl

theorem Leaves.step (h : Leaves mail p m) (hs : p.Steps call r p' sent) :
    sent = [] ∧ ((∃ n < m, Leaves mail p' n) ∨
      m = 3 ∧ mail ≠ [] ∧ p'.stage = .receiving .peerFin ∧ p'.mail = mail) := by
  cases h with
  | awaits hc =>
    obtain ⟨-, rfl, d, rfl, -⟩ := hs.of_awaiting
    exact ⟨rfl, .inl ⟨4, by decide, .receives hc⟩⟩
  | receives =>
    obtain ⟨rfl, d, rfl, -⟩ := hs.of_receiving
    exact ⟨rfl, .inl ⟨3, by decide, .awaitsFin⟩⟩
  | awaitsFin =>
    -- only the FIN is missing, if it has been sent
    obtain ⟨hm, rfl, d, rfl, -⟩ := hs.of_awaiting
    exact ⟨rfl, .inr ⟨rfl, hm, rfl, rfl⟩⟩

theorem Leaves.receive (h : Leaves mail p m) (segments : List Segment) :
    Leaves (mail ++ segments) (p.receive segments) m := by
  cases h with
  | awaits hs => exact .awaits hs
  | receives hs => exact .receives hs
  | awaitsFin => exact .awaitsFin

theorem Parts.step (h : Parts k e p mail m) (hs : p.Steps call r p' sent) :
    ∃ n < m, Parts k e p' (mail ++ sent) n := by
  cases h with
  | signals hn ha =>
    obtain ⟨c', x', mail'⟩ := p'
    obtain ⟨hg, -, hcount, -, hsound⟩ := hs
    cases hg with
    | fails => exact absurd rfl (hsound _)
    | signals =>
      refine ⟨3, by decide, .sends ?_ ?_⟩
      · rw [hcount]
        exact hn
      · rw [hcount]
        exact ha
  | @sends d bytes hq ha =>
    obtain ⟨rfl, d', rfl, -⟩ := hs.of_sending
    exact ⟨2, by decide, .sent (hq ▸ ha ▸ says_reissue .fin [])⟩
  | sent => exact absurd rfl hs.of_awaiting.1

/-- **A writer that is open** fetches, or closes. -/
theorem Moving.writer_idle (hn : c.figures.next = k) (hb : Opens e k [] b n)
    (hs : Party.Steps ⟨c, .idle, []⟩ call r a' sent) : Moving k e a' (b.receive sent) (13 + n) := by
  obtain ⟨c', x', mail'⟩ := a'
  obtain ⟨hg, -, hcount, -, hsound⟩ := hs
  cases hg with
  | fails => exact absurd rfl (hsound _)
  | hears hm => exact absurd rfl hm
  | fetches =>
    rw [Party.receive_nil]
    exact .fetches (hcount ▸ hn) hb
  | closes =>
    rw [Party.receive_nil]
    exact .closes (by rw [hcount]; exact hn) hb

/-- **A writer that fetches** sends what it has read. -/
theorem Moving.writer_fetching (hn : c.figures.next = k) (hb : Opens e k [] b n)
    (hs : Party.Steps ⟨c, .fetching, []⟩ call r a' sent) :
    readBytes call r ≠ [] ∧ Moving k e a' (b.receive sent) (21 + n) := by
  obtain ⟨c', x', mail'⟩ := a'
  obtain ⟨hg, -, hcount, -, hsound⟩ := hs
  cases hg with
  | fails => exact absurd rfl (hsound _)
  | @writes _ size bytes hne =>
    rw [Party.receive_nil]
    refine ⟨hne, .sends ?_ hb⟩
    rw [hcount, count_fetch hne]
    exact hn

/-- **A writer that hears the FIN of the other party** acknowledges it at once. -/
theorem Moving.writer_heard {d : Connection} (hsaid : s.Says .fin [] e (k + 1))
    (hs : Party.Steps ⟨c, .receiving .peerFin, [s]⟩ call r a' sent) :
    sent = [] ∧ Moving k e a' ⟨d, .awaiting .lastFin, []⟩ 3 := by
  obtain ⟨rfl, c', rfl, hcount⟩ := hs.of_receiving
  have hexpects : c'.figures.expects = e + 1 := by
    rw [hcount, count_take_expects, hsaid.past_flag (by decide)]
  have hnext : c'.figures.next = k + 1 := by
    rw [hcount, count_take_next (w := .peerFin) (by simp), hsaid.ack]
  -- the acknowledgment carries the numbers that it leaves
  rw [Wait.take, Wait.after, hsaid.payload] at hcount
  rw [Wait.after, hsaid.payload]
  refine ⟨rfl, .thanks hnext hexpects ?_ ?_⟩
  · rw [← hnext, hcount]
    rfl
  · rw [← hexpects, hcount]
    rfl

/-- **A turn of the writer** after the handshake. Bytes that it reads make up for the turns that
they cost. -/
theorem Moving.writer (h : Moving k e a b n) (hs : a.Steps call r a' sent) :
    ∃ m < n + 9 * (readBytes call r).length, Moving k e a' (b.receive sent) m := by
  cases h with
  | @opened _ _ m n ha hb =>
    by_cases hm : m = 0
    · subst hm
      cases ha with
      | idles hn => exact ⟨13 + n, by omega, .writer_idle hn hb hs⟩
    · obtain ⟨rfl, m', hlt, hopens⟩ := ha.step hm hs
      rw [Party.receive_nil]
      exact ⟨14 + m' + n, by omega, .opened hopens hb⟩
  | @fetches c _ n hn hb =>
    -- a turn that reads costs the whole cycle of a segment, and every byte makes up for it
    obtain ⟨hne, hmoves⟩ := Moving.writer_fetching hn hb hs
    have hpos : 0 < (readBytes call r).length := List.length_pos_iff.2 hne
    exact ⟨21 + n, by omega, hmoves⟩
  | @sends c _ bytes n hq hb =>
    obtain ⟨rfl, d, rfl, -⟩ := hs.of_sending
    exact ⟨20 + n, by omega, .sent (hq ▸ says_reissue .data bytes) (hb.receive _)⟩
  | sent | reads | delivers | acks | closed | hears | bows => exact absurd rfl hs.of_awaiting.1
  | acked hsaid hn he =>
    obtain ⟨-, rfl, d, rfl, -⟩ := hs.of_awaiting
    rw [Party.receive_nil]
    exact ⟨15, by omega, .takes hsaid hn he⟩
  | takes hsaid hn he =>
    obtain ⟨rfl, d, rfl, hcount⟩ := hs.of_receiving
    rw [Party.receive_nil]
    -- the acknowledgment closes the cycle, and both are open again
    refine ⟨14 + 0 + 0, by omega, .opened (.idles ?_ ?_) (.idles hn he)⟩
    · rw [hcount, count_take_next (w := .data) (by simp), hsaid.ack]
    · rw [hcount, count_take_expects, hsaid.past_ack]
  | @closes c _ bytes n hq hb =>
    obtain ⟨rfl, d, rfl, -⟩ := hs.of_sending
    exact ⟨12 + n, by omega, .closed (hq ▸ says_reissue .fin []) (hb.receive _)⟩
  | @parts _ _ mail m n ha hb =>
    -- the writer waits for the FIN that the other party sends
    obtain ⟨rfl, ⟨m', hlt, ha'⟩ | ⟨rfl, hm, hx, hmail⟩⟩ := ha.step hs
    · rw [Party.receive_nil]
      exact ⟨m' + n, by omega, .parts ha' hb⟩
    · obtain ⟨c', x', mail'⟩ := a'
      obtain rfl : x' = .receiving .peerFin := hx
      obtain rfl : mail' = mail := hmail
      rw [Party.receive_nil]
      cases hb with
      | signals | sends => exact absurd rfl hm
      | sent hsaid => exact ⟨4, by omega, .heard hsaid⟩
  | heard hsaid =>
    obtain ⟨rfl, hmoves⟩ := Moving.writer_heard hsaid hs
    rw [Party.receive_nil]
    exact ⟨3, by omega, hmoves⟩
  | @thanks c d bytes hn he hq ha =>
    obtain ⟨rfl, c', rfl, hcount⟩ := hs.of_sending
    exact ⟨2, by omega, .left (hcount ▸ hn) (hcount ▸ he) (hq ▸ ha ▸ says_reissue .ack [])⟩
  | left | last | gone => cases hs.rests_eq_false

/-- A party that opens while its application is silent sends nothing, and reads what waits for it
once it is open. -/
theorem Opens.other (h : Opens e k rest p n) (hs : p.Steps call r p' sent)
    (hquiet : r ≠ .event .appData ∧ r ≠ .event .appCloseRequested) :
    sent = [] ∧ deliveredBytes call r = [] ∧ ((∃ m < n, Opens e k rest p' m) ∨
      rest ≠ [] ∧ p'.stage = .reading ∧ p'.mail = rest ∧ p'.connection.figures.next = e) := by
  have hread : deliveredBytes call r = [] :=
    hs.goes.deliveredBytes_eq_nil (by cases h <;> nofun)
  by_cases h0 : n = 0
  · subst h0
    have hsteps := hs
    obtain ⟨c', x', mail'⟩ := p'
    obtain ⟨hg, -, hcount, -, hsound⟩ := hs
    cases h with
    | idles hn =>
      cases hg with
      | fails => exact absurd rfl (hsound _)
      | fetches => exact absurd rfl hquiet.1
      | closes => exact absurd rfl hquiet.2
      | hears hm => exact ⟨rfl, hread, .inr ⟨hm, rfl, rfl, by rw [hcount]; exact hn⟩⟩
  · obtain ⟨hsent, hopens⟩ := h.step h0 hs
    exact ⟨hsent, hread, .inl hopens⟩

/-- The other party opens further whatever the writer does, and reads what waits for it. -/
theorem Opens.moving {l q : Nat} (hb : Opens e k rest b n) (hs : b.Steps call r b' sent)
    (hquiet : r ≠ .event .appData ∧ r ≠ .event .appCloseRequested) (hlt : q < l)
    (hopens : ∀ {b' : Party} {m : Nat}, Opens e k rest b' m → Moving k e a b' (l + m))
    (hreads : rest ≠ [] → ∀ {d : Connection}, d.figures.next = e →
      Moving k e a ⟨d, .reading, rest⟩ q) :
    ∃ m < l + n, Moving (k + UInt32.ofNat (deliveredBytes call r).length) e (a.receive sent) b' m := by
  obtain ⟨c', x', mail'⟩ := b'
  obtain ⟨rfl, hnil, hb'⟩ := hb.other hs hquiet
  have hsame : k + UInt32.ofNat (deliveredBytes call r).length = k := by simp [hnil]
  rw [hsame, Party.receive_nil]
  obtain ⟨n', hlt', hb'⟩ | ⟨hne, hx, hmail, hn⟩ := hb'
  · exact ⟨l + n', by omega, hopens hb'⟩
  · obtain rfl : x' = .reading := hx
    obtain rfl : mail' = rest := hmail
    exact ⟨q, by omega, hreads hne hn⟩

/-- **The other party's turn that hands data over** delivers what its numbers are past already. -/
theorem Moving.other_delivering {d : Connection} {bytes : List UInt8} (hn : d.figures.next = e)
    (he : d.figures.expects = k + UInt32.ofNat bytes.length)
    (hs : Party.Steps ⟨d, .delivering .data bytes, []⟩ call r b' sent) :
    sent = [] ∧ Moving (k + UInt32.ofNat (deliveredBytes call r).length) e
      ⟨c, .awaiting .data, []⟩ b' 17 := by
  obtain ⟨d', x', mail'⟩ := b'
  obtain ⟨hg, -, hcount, -, hsound⟩ := hs
  cases hg with
  | fails => exact absurd rfl (hsound _)
  | hands =>
    refine ⟨rfl, .acks ?_ ?_ ?_ ?_⟩ <;> rw [hcount] <;> assumption

/-- **A turn of the other party** after the handshake, while its application is silent. What it has
delivered is acknowledged next. -/
theorem Moving.other (h : Moving k e a b n) (hs : b.Steps call r b' sent)
    (hquiet : r ≠ .event .appData ∧ r ≠ .event .appCloseRequested) :
    ∃ m < n, Moving (k + UInt32.ofNat (deliveredBytes call r).length) e (a.receive sent) b' m := by
  -- nothing but the handing over of data delivers
  have hkeep : (∀ arr bytes, b.stage ≠ .delivering arr bytes) →
      (∃ m < n, Moving k e (a.receive sent) b' m) →
      ∃ m < n, Moving (k + UInt32.ofNat (deliveredBytes call r).length) e (a.receive sent) b' m := by
    intro hne hm
    rw [hs.goes.deliveredBytes_eq_nil hne]
    simpa using hm
  cases h with
  | opened ha hb => exact hb.moving (q := 0) hs hquiet (by omega) (.opened ha) (absurd rfl)
  | fetches hn hb => exact hb.moving (q := 0) hs hquiet (by omega) (.fetches hn) (absurd rfl)
  | sends hq hb => exact hb.moving (q := 0) hs hquiet (by omega) (.sends hq) (absurd rfl)
  | closes hq hb => exact hb.moving (q := 0) hs hquiet (by omega) (.closes hq) (absurd rfl)
  | sent hsaid hb => exact hb.moving hs hquiet (by omega) (.sent hsaid) fun _ => .reads hsaid
  | closed hsaid hb => exact hb.moving hs hquiet (by omega) (.closed hsaid) fun _ => .hears hsaid
  | reads hsaid hn =>
    obtain ⟨rfl, d, rfl, hcount⟩ := hs.of_data hsaid.control
    -- the numbers are past the data before the application has it
    refine hkeep (by simp) ⟨18, by omega, .delivers ?_ ?_⟩
    · rw [hcount]
      exact hn
    · rw [hcount, hsaid.payload]
      exact hsaid.past_data
  | delivers hn he =>
    obtain ⟨rfl, hmoves⟩ := Moving.other_delivering hn he hs
    rw [Party.receive_nil]
    exact ⟨17, by omega, hmoves⟩
  | @acks c d bytes hn he hq ha =>
    obtain ⟨rfl, d', rfl, hcount⟩ := hs.of_sending
    exact hkeep (by simp) ⟨16, by omega, .acked (hq ▸ ha ▸ says_reissue .ack []) (hcount ▸ hn)
      (hcount ▸ he)⟩
  | acked | takes => exact (hs.not_of_idle.elim hquiet.1 hquiet.2).elim
  | hears hsaid hn =>
    obtain ⟨rfl, d, rfl, hcount⟩ := hs.of_fin hsaid.control hsaid.payload
    refine hkeep (by simp) ⟨10, by omega, .bows ?_ ?_⟩
    · rw [hcount]
      exact hn
    · rw [hcount]
      exact hsaid.past_flag (by decide)
  | @bows c d bytes hn ha =>
    obtain ⟨rfl, d', rfl, hcount⟩ := hs.of_sending
    -- from here on the two close at the same time
    exact hkeep (by simp)
      ⟨5 + 4, by omega, .parts (.awaits rfl) (.signals (hcount ▸ hn) (hcount ▸ ha))⟩
  | @parts _ _ mail m n ha hb =>
    obtain ⟨n', hlt, hb'⟩ := hb.step hs
    exact hkeep (by cases hb <;> simp) ⟨m + n', by omega, .parts (ha.receive sent) hb'⟩
  | heard | thanks => exact absurd rfl hs.of_awaiting.1
  | left hn he hsaid =>
    obtain ⟨-, rfl, d, rfl, -⟩ := hs.of_awaiting
    exact hkeep (by simp) ⟨1, by omega, .last hn he hsaid⟩
  | last hn he hsaid =>
    obtain ⟨rfl, d, rfl, hcount⟩ := hs.of_receiving
    refine hkeep (by simp) ⟨0, by omega, .gone hn he ?_ ?_⟩
    · rw [hcount, count_take_next (w := .lastFin) (by simp), hsaid.ack]
    · rw [hcount, count_take_expects, hsaid.past_ack]
  | gone => cases hs.rests_eq_false

/-- **The phases of a transfer**, the writer first, whose initial number is `i`. The other party has
delivered so many bytes. -/
inductive Phase (i j : UInt32) : Nat → Party → Party → Nat → Prop where
  | calls {a b : Party} {n : Nat} (h : Dialing i j a b n) : Phase i j 0 a b n
  | called {a b : Party} {n : Nat} (h : Dialing j i b a n) : Phase i j 0 a b n
  | moves {a b : Party} {bytes n : Nat} (h : Moving (i + 1 + UInt32.ofNat bytes) (j + 1) a b n) :
    Phase i j bytes a b n

variable {d : Nat}

theorem Opens.toPhase (ha : Opens (i + 1) (j + 1) [] a m) (hb : Opens (j + 1) (i + 1) [] b n) :
    Phase i j 0 a b (14 + m + n) := by
  have hzero : i + 1 + UInt32.ofNat 0 = i + 1 := by simp
  exact .moves (hzero.symm ▸ .opened ha hb)

/-- **A turn of the writer.** -/
theorem Phase.writer (h : Phase i j d a b n) (hs : a.Steps call r a' sent) :
    ∃ m < n + 9 * (readBytes call r).length, Phase i j d a' (b.receive sent) m := by
  cases h with
  | calls h =>
    obtain ⟨m, hlt, h'⟩ | ⟨m, l, hlt, ha, hb⟩ := h.active hs
    · exact ⟨m, by omega, .calls h'⟩
    · exact ⟨_, by omega, ha.toPhase hb⟩
  | called h =>
    obtain ⟨m, hlt, h'⟩ := h.passive hs
    exact ⟨m, by omega, .called h'⟩
  | moves h =>
    obtain ⟨m, hlt, h'⟩ := h.writer hs
    exact ⟨m, hlt, .moves h'⟩

/-- **A turn of the other party**, while its application is silent. -/
theorem Phase.other (h : Phase i j d a b n) (hs : b.Steps call r b' sent)
    (hquiet : r ≠ .event .appData ∧ r ≠ .event .appCloseRequested) :
    ∃ m < n, Phase i j (d + (deliveredBytes call r).length) (a.receive sent) b' m := by
  cases h with
  | calls h =>
    rw [hs.goes.deliveredBytes_eq_nil fun arr bytes => (h.ne_delivering arr bytes).2]
    obtain ⟨m, hlt, h'⟩ := h.passive hs
    exact ⟨m, hlt, .calls h'⟩
  | called h =>
    rw [hs.goes.deliveredBytes_eq_nil fun arr bytes => (h.ne_delivering arr bytes).1]
    obtain ⟨m, hlt, h'⟩ | ⟨m, l, hlt, hb, ha⟩ := h.active hs
    · exact ⟨m, hlt, .called h'⟩
    · exact ⟨_, by omega, ha.toPhase hb⟩
  | moves h =>
    obtain ⟨m, hlt, h'⟩ := h.other hs hquiet
    refine ⟨m, hlt, .moves ?_⟩
    rw [UInt32.ofNat_add, ← UInt32.add_assoc]
    exact h'

theorem Phase.writer_begins (h : Phase i j d a b n) (hx : a.stage = .ready)
    (hfree : a.connection.Free .listen)
    (hc : carry a.connection (opening a.connection.role) = (c', x')) :
    ∃ m < n, Phase i j d ⟨c', x', a.mail⟩ b m := by
  cases h with
  | calls h =>
    obtain ⟨m, hlt, h'⟩ := h.active_begins hx hfree hc
    exact ⟨m, hlt, .calls h'⟩
  | called h =>
    obtain ⟨m, hlt, h'⟩ := h.passive_begins hx hfree hc
    exact ⟨m, hlt, .called h'⟩
  | moves h =>
    cases h with
    | opened ha => cases ha <;> cases hx
    | parts ha => cases ha <;> cases hx
    | _ => cases hx

theorem Phase.other_begins (h : Phase i j d a b n) (hx : b.stage = .ready)
    (hfree : b.connection.Free .listen)
    (hc : carry b.connection (opening b.connection.role) = (c', x')) :
    ∃ m < n, Phase i j d a ⟨c', x', b.mail⟩ m := by
  cases h with
  | calls h =>
    obtain ⟨m, hlt, h'⟩ := h.passive_begins hx hfree hc
    exact ⟨m, hlt, .calls h'⟩
  | called h =>
    obtain ⟨m, hlt, h'⟩ := h.active_begins hx hfree hc
    exact ⟨m, hlt, .called h'⟩
  | moves h =>
    cases h with
    | opened _ hb | fetches _ hb | sends _ hb | sent _ hb | closes _ hb | closed _ hb =>
      cases hb <;> cases hx
    | parts _ hb => cases hb <;> cases hx
    | _ => cases hx

theorem Moving.apt (h : Moving k e a b n) : a.Apt ∧ b.Apt := by
  cases h with
  | opened ha hb => exact ⟨ha.apt, hb.apt⟩
  | fetches _ hb | sends _ hb | sent _ hb | closes _ hb | closed _ hb =>
    exact ⟨.of_stage rfl, hb.apt⟩
  | reads | hears => exact ⟨.of_stage rfl, nofun, fun _ => nofun, nofun⟩
  | takes hs | heard hs => exact ⟨.of_accepts hs.accepts, .of_stage rfl⟩
  | parts ha hb =>
    constructor
    · cases ha with
      | receives hs => exact .of_accepts (by rw [hs]; rfl)
      | _ => exact .of_stage rfl
    · cases hb <;> exact .of_stage rfl
  | last _ _ hs => exact ⟨.of_stage rfl, .of_accepts hs.accepts⟩
  | _ => exact ⟨.of_stage rfl, .of_stage rfl⟩

/-- **In every phase, what waits suits both parties.** -/
theorem Phase.apt (h : Phase i j d a b n) : a.Apt ∧ b.Apt := by
  cases h with
  | calls h => exact h.apt
  | called h => exact h.apt.symm
  | moves h => exact h.apt

/-- **Nobody waits for a party that has ended**, or sends to it: the writer ends first, when its
last acknowledgment is out. -/
theorem Phase.company (h : Phase i j d a b n) :
    (a.stage = .ended → b.stage = .ended ∨ b.mail ≠ [] ∧ ∀ m bytes, b.stage ≠ .sending m bytes) ∧
      (b.stage = .ended → a.stage = .ended) := by
  cases h with
  | calls h => exact ⟨fun ha => absurd ha h.ne_ended.1, fun hb => absurd hb h.ne_ended.2⟩
  | called h => exact ⟨fun ha => absurd ha h.ne_ended.2, fun hb => absurd hb h.ne_ended.1⟩
  | moves h =>
    cases h with
    | opened ha hb =>
      exact ⟨fun hx => absurd hx ha.ne_ended, fun hx => absurd hx hb.ne_ended⟩
    | fetches _ hb | sends _ hb | sent _ hb | closes _ hb | closed _ hb =>
      exact ⟨nofun, fun hx => absurd hx hb.ne_ended⟩
    | parts ha hb => cases ha <;> cases hb <;> exact ⟨nofun, nofun⟩
    | left | last => exact ⟨fun _ => .inr ⟨nofun, nofun⟩, nofun⟩
    | gone => exact ⟨fun _ => .inl rfl, fun _ => rfl⟩
    | _ => exact ⟨nofun, nofun⟩

/-- **In every phase but the last one some party can go on**, or both are open and the writer waits
for its application. -/
theorem Phase.stirs (h : Phase i j d a b n) :
    (a.stage = .ended ∧ b.stage = .ended) ∨ a.Stirs ∨ b.Stirs ∨ (a.stage = .idle ∧ a.mail = []) := by
  cases h with
  | calls h => exact .inr (h.stirs.imp_right .inl)
  | called h => exact .inr (h.stirs.symm.imp_right .inl)
  | moves h =>
    cases h with
    | gone => exact .inl ⟨rfl, rfl⟩
    | opened ha hb =>
      -- a writer that is open stirs, or waits for its application
      obtain ha' | ⟨-, rfl⟩ := ha.stirs
      · exact .inr (.inl ha')
      · cases ha
        exact .inr (.inr (.inr ⟨rfl, rfl⟩))
    | sent _ hb | closed _ hb =>
      exact .inr (.inr (.inl (hb.stirs.resolve_right fun hr => absurd hr.1 nofun)))
    | parts ha hb =>
      cases hb with
      | signals | sends => exact .inr (.inr (.inl trivial))
      | sent => cases ha <;> exact .inr (.inl nofun)
    | fetches | sends | closes | thanks => exact .inr (.inl trivial)
    | acked | takes | heard => exact .inr (.inl nofun)
    | delivers | acks | bows => exact .inr (.inr (.inl trivial))
    | reads | hears | left | last => exact .inr (.inr (.inl nofun))

/-- A writer that has ended may let go of its session. -/
theorem Phase.writer_retires (h : Phase i j d a b n) (hx : a.stage = .ended) :
    Phase i j d ⟨a.connection.drop, a.stage, []⟩ b n := by
  cases h with
  | calls h => exact absurd hx h.ne_ended.1
  | called h => exact absurd hx h.ne_ended.2
  | moves h =>
    cases h with
    | opened ha => exact absurd hx ha.ne_ended
    | parts ha => cases ha <;> cases hx
    | left hn he hs => exact .moves (.left hn he hs)
    | last hn he hs => exact .moves (.last hn he hs)
    | gone hn he hn' he' => exact .moves (.gone hn he hn' he')
    | _ => cases hx

/-- The other party may let go of its session when it has ended, too. -/
theorem Phase.other_retires (h : Phase i j d a b n) (hx : b.stage = .ended) :
    Phase i j d a ⟨b.connection.drop, b.stage, []⟩ n := by
  cases h with
  | calls h => exact absurd hx h.ne_ended.2
  | called h => exact absurd hx h.ne_ended.1
  | moves h =>
    cases h with
    | opened _ hb | fetches _ hb | sends _ hb | sent _ hb | closes _ hb | closed _ hb =>
      exact absurd hx hb.ne_ended
    | parts _ hb => cases hb <;> cases hx
    | gone hn he hn' he' => exact .moves (.gone hn he hn' he')
    | _ => cases hx

/-- **At most two segments wait for a party.** -/
theorem Phase.length_mail (h : Phase i j d a b n) : a.mail.length ≤ 2 ∧ b.mail.length ≤ 2 := by
  -- two segments wait only when the FIN follows an acknowledgment
  have hdial : ∀ {i j : UInt32} {a b : Party}, Dialing i j a b n →
      a.mail.length ≤ 1 ∧ b.mail.length ≤ 1 := by
    intro i j a b h
    cases h with
    | meets ha hb => cases ha <;> cases hb <;> simp
    | _ => simp
  have hopens : ∀ {k e : UInt32} {rest : List Segment} {p : Party} {m : Nat},
      Opens k e rest p m → p.mail.length ≤ rest.length + 1 := by
    intro k e rest p m h
    cases h <;> simp
  cases h with
  | calls h =>
    have := hdial h
    omega
  | called h =>
    have := hdial h
    omega
  | moves h =>
    cases h with
    | opened ha hb => exact ⟨Nat.le_succ_of_le (hopens ha), Nat.le_succ_of_le (hopens hb)⟩
    | fetches _ hb | sends _ hb | closes _ hb =>
      exact ⟨Nat.zero_le _, Nat.le_succ_of_le (hopens hb)⟩
    | sent _ hb | closed _ hb => exact ⟨Nat.zero_le _, hopens hb⟩
    | parts ha hb => cases ha <;> cases hb <;> simp
    | _ => simp

/-- **When both have ended**, either one knows the number that the other would send next. -/
theorem Phase.numbers (h : Phase i j d a b n) (ha : a.stage = .ended) (hb : b.stage = .ended) :
    a.connection.figures.next = i + 2 + UInt32.ofNat d ∧ b.connection.figures.next = j + 2 ∧
      a.connection.figures.expects = b.connection.figures.next ∧
      b.connection.figures.expects = a.connection.figures.next := by
  cases h with
  | calls h => exact absurd ha h.ne_ended.1
  | called h => exact absurd ha h.ne_ended.2
  | moves h =>
    cases h with
    | opened ho => exact absurd ha ho.ne_ended
    | parts ho => cases ho <;> cases ha
    | gone hn he hn' he' =>
      refine ⟨?_, ?_, he.trans hn'.symm, he'.trans hn.symm⟩
      · rw [hn]
        grind
      · rw [hn']
        grind
    | left | last => cases hb
    | _ => cases ha

end StopWait.Session
