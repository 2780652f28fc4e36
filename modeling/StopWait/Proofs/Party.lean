import StopWait.Proofs.Codec
import StopWait.Proofs.Exchange
import StopWait.Proofs.Passage

/-!
# Parties

A session with the segments that wait for it, and what one answered call of its stack makes of
them. Sessions talk to sessions here: every segment that waits is one that a session sends.

* `Segment.Regular`: the segments that sessions send.
* `Post`: the segments that an answered call takes and gives.
* `Goes`: **what an answered call can make of a stage and the segments that wait.**
* `Passes.goes`, `goes_of_carry`: a session's turn is one of these.
-/

namespace StopWait

/-- **The segments that sessions send**: only data has a payload, and FIN and ACK do not go
together. -/
structure Segment.Regular (s : Segment) : Prop where
  offset : s.header.dataOffset = Header.words
  kind : ∃ k : Kind, k ≠ .finAck ∧ s.header.control = k.control ∧
    if k = .data then s.payload ≠ [] ∧ s.payload.length ≤ mss.toNat else s.payload = []

namespace Segment

variable {s : Segment}

theorem Regular.length_le (h : s.Regular) : s.payload.length ≤ mss.toNat := by
  obtain ⟨k, -, -, hk⟩ := h.kind
  split at hk
  · exact hk.2
  · simp [hk]

/-- **A session reads the segment that a session sent.** -/
theorem Regular.parse_take (h : s.Regular) :
    Segment.parse (s.serialize.take receiveCapacity) = .ok s := by
  have hlen := h.length_le
  rw [List.take_of_length_le, parse_serialize h.offset]
  rw [length_serialize, receiveCapacity]
  omega

theorem Regular.parse_received (h : s.Regular) :
    Segment.parse ((s.serialize.take receiveCapacity).take receiveCapacity) = .ok s := by
  rw [List.take_take, Nat.min_self, h.parse_take]

/-- A regular segment with a control bit has no payload, and none with a payload has FIN. -/
theorem Regular.payload_eq_nil (h : s.Regular)
    (hc : s.header.control ≠ Kind.data.control) : s.payload = [] := by
  obtain ⟨k, -, hk, hp⟩ := h.kind
  rw [hk] at hc
  have hd : k ≠ .data := fun hd => hc (by rw [hd])
  rwa [if_neg hd] at hp

theorem Regular.payload_ne_nil (h : s.Regular)
    (hc : s.header.control = Kind.data.control) : s.payload ≠ [] := by
  obtain ⟨k, hf, hk, hp⟩ := h.kind
  rw [hk] at hc
  -- no other kind of a regular segment has no control bit
  have hd : k = .data := by cases k <;> first | rfl | exact absurd rfl hf | cases hc
  rw [if_pos hd] at hp
  exact hp.1

/-- Of the regular segments only a FIN ends the stream. -/
theorem Regular.control_of_fin (h : s.Regular) (hf : s.header.control.fin = true) :
    s.header.control = Kind.fin.control := by
  obtain ⟨k, hfa, hk, -⟩ := h.kind
  rw [hk] at hf ⊢
  cases k <;> first | rfl | exact absurd rfl hfa | cases hf

end Segment

namespace Session

/-- The segments that a stage hands to the network. -/
def Stage.outgoing (c : Connection) : Stage → List Segment
  | .sending m bytes => [c.reissue m.kind (m.payload bytes)]
  | _ => []

theorem regular_outgoing {c : Connection} {x : Stage} (h : x.Sound) :
    ∀ s ∈ x.outgoing c, s.Regular := by
  intro s hs
  cases x with
  | sending m bytes =>
    obtain rfl := List.mem_singleton.1 hs
    refine ⟨rfl, m.kind, by cases m <;> decide, rfl, ?_⟩
    by_cases hm : m = .data
    · subst hm
      exact h
    · have hk : m.kind ≠ .data := by cases m <;> first | exact absurd rfl hm | decide
      rw [if_neg hk]
      exact if_neg hm
  | _ => cases hs

/-- The segments that an answered call takes from those that wait, and those that it gives to the
peer, which are the `outgoing` ones or none. -/
inductive Post (outgoing mail : List Segment) :
    Call → Response → List Segment → List Segment → Prop where
  | sent {d : List UInt8} : Post outgoing mail (.networkSend d) (.sent d.length) mail outgoing
  | lost {d : List UInt8} : Post outgoing mail (.networkSend d) (.sent d.length) mail []
  | received {n : Nat} {s : Segment} {rest : List Segment} (h : mail = s :: rest) :
    Post outgoing mail (.networkRecv n) (.bytes (s.serialize.take n)) rest []
  | read {n : Nat} {bytes : List UInt8} (h : bytes.length ≤ n) :
    Post outgoing mail (.appRecv n) (.bytes bytes) mail []
  | event {mask : Interest} {event : Event} (h : event = .networkData → mail ≠ []) :
    Post outgoing mail (.wait mask) (.event event) mail []
  | told {c : Call} (h : Link.noticeOf c ≠ none) : Post outgoing mail c .told mail []
  | failed {c : Call} {e : Call.Failure} : Post outgoing mail c (.failed e) mail []

theorem Post.sublist {outgoing mail mail' sent : List Segment} {call : Call} {r : Response}
    (h : Post outgoing mail call r mail' sent) : mail'.Sublist mail := by
  cases h with
  | received h => exact h ▸ List.sublist_cons_self _ _
  | _ => exact .refl _

theorem Post.mem_outgoing {outgoing mail mail' sent : List Segment} {call : Call} {r : Response}
    (h : Post outgoing mail call r mail' sent) : ∀ s ∈ sent, s ∈ outgoing := by
  cases h with
  | sent => exact fun s hs => hs
  | _ => nofun

/-- What a session sends is what its stage hands to the network. -/
theorem outgoing_of_call {c : Connection} {x : Stage} {p : Point} {d : List UInt8}
    (hp : x.status c = .suspended p) (hc : p.call c = .networkSend d) :
    (x.outgoing c).map Segment.serialize = [d] := by
  cases x with
  | ready | failed | ended => cases hp
  | sending m bytes =>
    cases hp
    cases hc
    rfl
  | _ => cases hp; cases hc

/-- **An exchange is a post** while the datagrams that wait are segments. -/
theorem post_of_exchange {c : Connection} {x : Stage} {p : Point} {r : Response}
    {losable : Prop} {e e' f f' : Link.Endpoint} {mail : List Segment}
    (hr : Link.Exchange losable e f (p.call c) r e' f') (hp : x.status c = .suspended p)
    (he : e.queue = mail.map Segment.serialize) :
    ∃ mail' sent, Post (x.outgoing c) mail (p.call c) r mail' sent ∧
      e'.queue = mail'.map Segment.serialize ∧
      f'.queue = f.queue ++ sent.map Segment.serialize := by
  generalize hc : p.call c = call at hr
  cases hr with
  | event heard ready =>
    refine ⟨mail, [], .event fun hev => ?_, heard.queue.trans he, by simp⟩
    -- a datagram is reported only if one waits
    rintro rfl
    obtain ⟨-, hq⟩ | ⟨h, -⟩ | ⟨h, -⟩ := Link.Endpoint.of_available ready
    · exact hq (heard.queue.trans he)
    · cases hev.symm.trans h
    · cases hev.symm.trans h
  | timeout heard => exact ⟨mail, [], .event (by simp), heard.queue.trans he, by simp⟩
  | deaf heard => exact ⟨mail, [], .failed, heard.queue.trans he, by simp⟩
  | sent =>
    refine ⟨mail, x.outgoing c, .sent, he, ?_⟩
    -- the datagram that goes out is the segment of the stage
    rw [outgoing_of_call hp hc]
    simp [Link.Endpoint.queue]
  | lost => exact ⟨mail, [], .lost, he, by simp⟩
  | unsendable | empty | untold => exact ⟨mail, [], .failed, he, by simp⟩
  | received taken =>
    cases mail with
    | nil =>
      rw [he] at taken
      cases taken
    | cons s rest =>
      rw [he, List.map_cons, List.cons.injEq] at taken
      obtain ⟨rfl, hrest⟩ := taken
      exact ⟨rest, [], .received rfl, hrest.symm, by simp⟩
  | read => exact ⟨mail, [], .read (List.length_take_le _ _), he, by simp⟩
  | told h => exact ⟨mail, [], .told (by rw [h]; simp), he, by simp⟩

/-- The response with which a segment is received. -/
def received (s : Segment) : Response := .bytes (s.serialize.take receiveCapacity)

theorem turn_receiving {s : Segment} {w : Wait} (hs : s.Regular) :
    (Stage.receiving w).turn (received s) = w.take s := readSegment_of_parse hs.parse_received _

theorem turn_reading {s : Segment} (hs : s.Regular) :
    Stage.reading.turn (received s) = arrival s := readSegment_of_parse hs.parse_received _

/-- **What an answered call can make of a stage** and the segments that wait: the stage and the
segments before, the call and the response, the stage and the segments after, and the segments for
the peer. -/
inductive Goes (c : Connection) : Stage → List Segment → Call → Response →
    Stage → List Segment → List Segment → Prop where
  | fails {x : Stage} {p : Point} {mail mail' : List Segment} {r : Response} {e : Session.Error}
    (hp : x.status c = .suspended p) (hm : mail' = mail ∨ ∃ s, mail = s :: mail') :
    Goes c x mail (p.call c) r (.failed e) mail' []
  | hears {mail : List Segment} (hm : mail ≠ []) :
    Goes c .idle mail (.wait .any) (.event .networkData) .reading mail []
  | fetches {mail : List Segment} :
    Goes c .idle mail (.wait .any) (.event .appData) .fetching mail []
  | closes {mail : List Segment} :
    Goes c .idle mail (.wait .any) (.event .appCloseRequested) (.sending .fin []) mail []
  | drops {s : Segment} {mail : List Segment} (hs : s.header.control ≠ Kind.data.control)
    (hf : s.header.control.fin = false) :
    Goes c .reading (s :: mail) (.networkRecv receiveCapacity) (received s) .idle mail []
  | takes {s : Segment} {mail : List Segment} (hs : s.header.control = Kind.data.control) :
    Goes c .reading (s :: mail) (.networkRecv receiveCapacity) (received s)
      (.delivering .data s.payload) mail []
  | takesFin {s : Segment} {mail : List Segment} (hs : s.header.control = Kind.fin.control) :
    Goes c .reading (s :: mail) (.networkRecv receiveCapacity) (received s)
      (.sending .peerFinAck []) mail []
  | writes {mail : List Segment} {n : Nat} {bytes : List UInt8} (h : bytes ≠ []) :
    Goes c .fetching mail (.appRecv n) (.bytes bytes) (.sending .data bytes) mail []
  | awaits {mail : List Segment} {w : Wait} (hm : mail ≠ []) :
    Goes c (.awaiting w) mail (.wait .networkOnly) (.event .networkData) (.receiving w) mail []
  | accepts {mail : List Segment} {w : Wait} {s : Segment}
    (hk : w.kind.accepts s.header.control = true) :
    Goes c (.receiving w) (s :: mail) (.networkRecv receiveCapacity) (received s)
      (w.after s.payload).2 mail []
  | posts {mail sent : List Segment} {m : Message} {bytes d : List UInt8} {n : Nat}
    (hs : sent = (Stage.sending m bytes).outgoing c ∨ sent = []) :
    Goes c (.sending m bytes) mail (.networkSend d) (.sent n) (m.after bytes).2 mail sent
  | hands {mail : List Segment} {bytes : List UInt8} :
    Goes c (.delivering .data bytes) mail (.appSend bytes) .told (.sending .dataAck bytes) mail []
  | signals {mail : List Segment} {bytes : List UInt8} :
    Goes c (.signalling bytes) mail .finReceived .told (.sending .lastFin bytes) mail []
  | opens {mail : List Segment} {bytes : List UInt8} :
    Goes c (.unblocking bytes) mail .unblock .told .idle mail []

/-- Whether a stage is one that a session reaches among sessions: no FIN brings a payload. -/
def Stage.Clean : Stage → Prop
  | .delivering a _ => a = .data
  | _ => True

variable {c₀ c : Connection} {x : Stage} {p : Point} {r : Response} {mail mail' sent : List Segment}

/-- A post answers its call. -/
theorem Post.exists_answer {outgoing : List Segment} {call : Call}
    (h : Post outgoing mail call r mail' sent) : ∃ a, response call a = r := by
  cases h with
  | told h => cases call <;> first | exact absurd rfl h | exact ⟨.ok (), rfl⟩
  | failed => exact ⟨.error _, by cases call <;> rfl⟩
  | _ => exact ⟨.ok _, rfl⟩

/-- A datagram that a session hands to the network has a header at least. -/
theorem call_ne_send_nil (hp : x.status c = .suspended p) : p.call c ≠ .networkSend [] := by
  intro hc
  obtain ⟨s, -, hs⟩ := List.map_eq_singleton_iff.1 (outgoing_of_call hp hc)
  have hlen : s.serialize.length = 0 := by rw [hs]; rfl
  rw [Segment.length_serialize, Header.size] at hlen
  omega

/-- An answer that accounts for an error sends nothing, and takes at most one segment. -/
theorem Post.of_accounts {outgoing : List Segment} {call : Call} {e : Session.Error}
    (h : Post outgoing mail call r mail' sent) (why : Accounts call r e)
    (hne : call ≠ .networkSend []) : sent = [] ∧ (mail' = mail ∨ ∃ s, mail = s :: mail') := by
  cases h with
  | sent | lost =>
    rename_i d
    -- the network takes all of a datagram, whether it delivers it or not
    generalize hd : d.length = n at why
    cases why
    exact absurd (congrArg _ (List.eq_nil_of_length_eq_zero hd)) hne
  | received h => exact ⟨rfl, .inr ⟨_, h⟩⟩
  | _ => exact ⟨rfl, .inl rfl⟩

/-- The datagram that is taken from the segments that wait is the first of them. -/
theorem Post.of_segment {outgoing : List Segment} {bytes : List UInt8} {s : Segment}
    (h : Post outgoing mail (.networkRecv receiveCapacity) (.bytes bytes) mail' sent)
    (hreg : ∀ s ∈ mail, s.Regular) (hs : Segment.parse (bytes.take receiveCapacity) = .ok s) :
    mail = s :: mail' ∧ bytes = s.serialize.take receiveCapacity ∧ sent = [] ∧ s.Regular := by
  cases h with
  | received hm =>
    rename_i s'
    have hs' : s'.Regular := hreg s' (by simp [hm])
    rw [hs'.parse_received] at hs
    cases hs
    exact ⟨hm, rfl, rfl, hs'⟩

/-- **What an answer makes of a session is one of the turns that can be**, as long as sessions send
to it. -/
theorem Passes.goes {call : Call} {d : Connection} {y : Stage} (hpass : Passes c x call r d y)
    (hclean : x.Clean) (hp : x.status c = .suspended p) (hcall : p.call c = call)
    (hreg : ∀ s ∈ mail, s.Regular) (hpost : Post (x.outgoing c) mail call r mail' sent) :
    Goes c x mail call r y mail' sent ∧ y.Clean := by
  cases hpass with
  | fails why =>
    obtain ⟨rfl, hm⟩ := hpost.of_accounts why (hcall ▸ call_ne_send_nil hp)
    subst hcall
    exact ⟨.fails hp hm, trivial⟩
  | hears =>
    cases hpost with
    | event hm => exact ⟨.hears (hm rfl), trivial⟩
  | fetches =>
    cases hpost with
    | event => exact ⟨.fetches, trivial⟩
  | closes =>
    cases hpost with
    | event => exact ⟨.closes, trivial⟩
  | drops hs hf hnil =>
    obtain ⟨rfl, rfl, rfl, hs⟩ := hpost.of_segment hreg hs
    exact ⟨.drops (fun hd => hs.payload_ne_nil hd hnil) hf, trivial⟩
  | takes hs hf hne =>
    obtain ⟨rfl, rfl, rfl, hs⟩ := hpost.of_segment hreg hs
    have hd : _ = Kind.data.control := by_contra fun hd => hne (hs.payload_eq_nil hd)
    exact ⟨.takes hd, rfl⟩
  | takesFin hs hf =>
    obtain ⟨rfl, rfl, rfl, hs⟩ := hpost.of_segment hreg hs
    rw [hs.payload_eq_nil (by rw [hs.control_of_fin hf]; decide)]
    exact ⟨.takesFin (hs.control_of_fin hf), trivial⟩
  | writes hn hne =>
    cases hpost with
    | read hlen =>
      rw [List.take_of_length_le hlen] at hne ⊢
      exact ⟨.writes hne, trivial⟩
  | awaits =>
    cases hpost with
    | event hm => exact ⟨.awaits (hm rfl), trivial⟩
  | @accepts w bytes s d d' hs hk =>
    obtain ⟨rfl, rfl, rfl, hs⟩ := hpost.of_segment hreg hs
    refine ⟨.accepts hk, ?_⟩
    cases w with
    | peerFin =>
      have hpay : s.payload = [] := by
        refine hs.payload_eq_nil fun hd => ?_
        rw [hd] at hk
        cases hk
      rw [hpay]
      trivial
    | _ => trivial
  | @posts m =>
    have hafter : ∀ bytes, (m.after bytes).2.Clean := fun _ => by cases m <;> trivial
    cases hpost with
    | sent => exact ⟨.posts (.inl rfl), hafter _⟩
    | lost => exact ⟨.posts (.inr rfl), hafter _⟩
  | hands =>
    -- a FIN brings no payload, so only data is handed over
    obtain rfl := hclean
    cases hpost with
    | told => exact ⟨.hands, trivial⟩
  | signals =>
    cases hpost with
    | told => exact ⟨.signals, trivial⟩
  | opens =>
    cases hpost with
    | told => exact ⟨.opens, trivial⟩

/-- **A session's turn is one of those that can be**, as long as sessions send to it. -/
theorem goes_of_carry (h : x.Fits c₀ c) (hclean : x.Clean) (hp : x.status c = .suspended p)
    (hreg : ∀ s ∈ mail, s.Regular) (hpost : Post (x.outgoing c) mail (p.call c) r mail' sent) :
    Goes c x mail (p.call c) r (carry c (x.turn r)).2 mail' sent ∧
      (carry c (x.turn r)).2.Clean := by
  obtain ⟨a, rfl⟩ := hpost.exists_answer
  exact (passes_of_answer h hp a).goes hclean hp rfl hreg hpost

variable {x' : Stage} {c' : Connection} {call : Call} {bytes : List UInt8}

theorem outgoing_after (m : Message) (bytes : List UInt8) : (m.after bytes).2.outgoing c = [] := by
  cases m <;> rfl

/-- A message that has been sent leaves the state. -/
theorem state_of_sent {m : Message} (hx : (Stage.sending m bytes).Fits c₀ c)
    (hx' : (m.after bytes).2.Fits c₀ c') : c'.state = c.state := by
  rw [hx.1.state]
  cases m <;> first | exact hx'.1.state | exact hx'.2

/-- The peer's FIN closes a connection that has sent its own, before it is acknowledged. -/
theorem state_of_peerFin (hx' : (Wait.peerFin.after bytes).2.Fits c₀ c') : c'.state = .closed := by
  simp only [Wait.after, Arrival.begin] at hx'
  split at hx' <;> exact hx'.1.state

/-- **A turn leads to a state that follows.** -/
theorem Goes.follows (hg : Goes c x mail call r x' mail' sent) (hx : x.Fits c₀ c)
    (hx' : x'.Fits c₀ c') (hkept : ∀ e, x' = .failed e → c'.state = c.state) :
    State.Follows c.state c'.state := by
  have hstay : c'.state = c.state → State.Follows c.state c'.state := fun h => h ▸ .stays
  cases hg with
  | fails => exact hstay (hkept _ rfl)
  | hears | fetches | drops | takes | writes | awaits | hands | opens =>
    exact hstay (hx'.1.state.trans hx.1.state.symm)
  | closes => rw [hx.1.state, hx'.1.state]; exact .closes
  | takesFin => rw [hx.1.state, hx'.1.state]; exact .hears
  | signals => rw [hx.1.state, hx'.1.state]; exact .replies
  | posts =>
    exact hstay (state_of_sent hx hx')
  | accepts =>
    rename_i w s _
    cases w with
    | syn => rw [hx.1.state, hx'.1.state]; exact .answers
    | synAck => rw [hx.1.state, hx'.1.state]; exact .opens
    | opening => rw [hx.1.state, hx'.1.state]; exact .opened
    | data => exact hstay (hx'.1.state.trans hx.1.state.symm)
    | fin => rw [hx.1.state, hx'.1.state]; exact .halfCloses
    | lastFin => rw [hx.1.state, hx'.2]; exact .endsLast
    | peerFin =>
      rw [hx.1.state, state_of_peerFin hx']
      exact .ends

/-- A connection that comes to FIN-WAIT-1 was asked to close. -/
theorem Goes.close_of_finWait1 (hg : Goes c x mail call r x' mail' sent) (hx : x.Fits c₀ c)
    (hx' : x'.Fits c₀ c') (hkept : ∀ e, x' = .failed e → c'.state = c.state)
    (hne : c.state ≠ .finWait1) (hst : c'.state = .finWait1) :
    call = .wait .any ∧ r = .event .appCloseRequested := by
  -- other stages are reached in other states
  have hno : x'.Live c' → x'.state ≠ .finWait1 → False := fun hl hs => hs (hl.state ▸ hst)
  cases hg with
  | closes => exact ⟨rfl, rfl⟩
  | fails => exact absurd ((hkept _ rfl).symm.trans hst) hne
  | awaits => exact absurd (hx.1.state.trans (hx'.1.state.symm.trans hst)) hne
  | posts =>
    rename_i m _ _ _ _
    cases m with
    | fin => exact absurd hx.1.state hne
    | closeAck => cases hx'.2.symm.trans hst
    | _ => exact (hno hx'.1 nofun).elim
  | accepts =>
    rename_i w s _
    cases w with
    | lastFin => cases hx'.2.symm.trans hst
    | peerFin => cases (state_of_peerFin hx').symm.trans hst
    | _ => exact (hno hx'.1 nofun).elim
  | _ => exact (hno hx'.1 nofun).elim

end Session

end StopWait
