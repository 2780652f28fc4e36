import StopWait.Proofs.Party

/-!
# The flow of data between two sessions

What one session reads from its application goes to the other in stop-and-wait fashion: at most one
thing is on its way, and it is known what. It is a segment that asks for an acknowledgment, a
payload that the peer is handing over, or the acknowledgment. Each of them is a token, which knows
the bytes that were read and have yet to be delivered.

* `tokens`: the tokens of a direction.
* `Flow`: **at most one token is out, and it accounts for what is read and not delivered.**
* `Flow.asker`: a turn of the party that reads keeps the flow.
-/

namespace StopWait

namespace Segment

/-- Whether a segment asks for an acknowledgment: every one but a mere acknowledgment does. -/
def asks (s : Segment) : Bool := s.header.control ≠ Kind.ack.control

/-- Whether a segment brings an acknowledgment. -/
def answers (s : Segment) : Bool := s.header.control.ack

end Segment

namespace Session

open Link (readBytes handedBytes deliveredBytes)

/-- The payload that a stage hands to the application. -/
def Stage.handing : Stage → List (List UInt8)
  | .delivering _ bytes => [bytes]
  | _ => []

/-- Whether a stage sends what asks for an acknowledgment, or awaits one. -/
def Stage.asks : Stage → Bool
  | .sending m _ => m.kind ≠ .ack
  | .awaiting w | .receiving w => w.kind.control.ack
  | _ => false

/-- A session with the segments that wait for it. -/
structure Party where
  connection : Connection
  stage : Stage
  mail : List Segment

namespace Party

/-- The segments that a party hands to the network. -/
def out (p : Party) : List Segment := p.stage.outgoing p.connection

/-- Whether a party broke off in the middle of its connection. -/
def isLost (p : Party) : Bool :=
  match p.stage with
  | .failed _ => p.connection.state ≠ .listen && !p.connection.done
  | _ => false

/-- How many tokens a party may have out. -/
def slack (p : Party) : Nat := if p.isLost || p.stage.asks then 1 else 0

/-- Whether all that a party has read is known to be delivered. -/
def isQuiet (p : Party) : Bool := !p.isLost && !p.stage.flies

end Party

/-- The payloads that ask for an acknowledgment. -/
def asking (segments : List Segment) : List (List UInt8) :=
  (segments.filter Segment.asks).map Segment.payload

/-- The acknowledgments, which have nothing left to deliver. -/
def answering (segments : List Segment) : List (List UInt8) :=
  (segments.filter Segment.answers).map fun _ => []

/-- **The tokens of a direction**: what asks, what is being handed over, what answers. -/
def tokens (a b : Party) : List (List UInt8) :=
  asking b.mail ++ asking a.out ++ b.stage.handing ++ answering a.mail ++ answering b.out

/-- **The flow from one party to the other**, where `read` was read at the one, and `handed` was
handed to the application at the other, which took `delivered` of it. -/
structure Flow (a b : Party) (read handed delivered : List UInt8) : Prop where
  count : (tokens a b).length ≤ a.slack
  owed : ∀ payload ∈ tokens a b, read = delivered ++ payload
  quiet : a.isQuiet = true → read = delivered
  whole : b.isLost = false → handed = delivered
  sub : delivered <+: handed ∧ handed <+: read
  fin : (∃ s ∈ b.mail ++ a.out, s.header.control.fin = true) → a.connection.state.isShut = true
  heard : b.connection.state.hasHeardFin = true →
    a.connection.state.isShut = true ∧ read = delivered

variable {a b : Party} {read handed delivered : List UInt8}

@[simp] theorem asking_nil : asking [] = [] := rfl

@[simp] theorem answering_nil : answering [] = [] := rfl

theorem asking_append (xs ys : List Segment) : asking (xs ++ ys) = asking xs ++ asking ys := by
  simp [asking]

theorem answering_append (xs ys : List Segment) :
    answering (xs ++ ys) = answering xs ++ answering ys := by
  simp [answering]

theorem Party.slack_le (p : Party) : p.slack ≤ 1 := by
  unfold slack
  split <;> omega

/-- A party whose segments a peer has received more of. -/
def Party.receive (p : Party) (segments : List Segment) : Party :=
  { p with mail := p.mail ++ segments }

@[simp] theorem Party.receive_nil (p : Party) : p.receive [] = p := by simp [receive]

variable {a' : Party} {sent : List Segment}

/-- No token is out for a party that asks for nothing. -/
theorem Flow.tokens_eq_nil (h : Flow a b read handed delivered) (hs : a.slack = 0) :
    tokens a b = [] :=
  List.eq_nil_of_length_eq_zero (Nat.le_zero.1 (hs ▸ h.count))

/-- The asking party's part of the flow changes without a new token. -/
theorem Flow.keep (h : Flow a b read handed delivered)
    (hsub : ∀ payload ∈ tokens a' (b.receive sent), payload ∈ tokens a b)
    (hlen : (tokens a' (b.receive sent)).length ≤ a'.slack)
    (hquiet : a'.isQuiet = true → read = delivered)
    (hshut : a.connection.state.isShut = true → a'.connection.state.isShut = true)
    (hfin : ∀ s ∈ sent ++ a'.out, s.header.control.fin = true →
      s ∈ a.out ∨ a'.connection.state.isShut = true) :
    Flow a' (b.receive sent) read handed delivered where
  count := hlen
  owed := fun payload hp => h.owed payload (hsub payload hp)
  quiet := hquiet
  whole := h.whole
  sub := h.sub
  fin := by
    rintro ⟨s, hs, hf⟩
    rw [Party.receive, List.append_assoc, List.mem_append] at hs
    rcases hs with hm | hs
    · exact hshut (h.fin ⟨s, List.mem_append_left _ hm, hf⟩)
    · rcases hfin s hs hf with ho | hs'
      · exact hshut (h.fin ⟨s, List.mem_append_right _ ho, hf⟩)
      · exact hs'
  heard := fun hb => ⟨hshut (h.heard hb).1, (h.heard hb).2⟩

/-- What the asking party sends leaves the tokens. -/
theorem tokens_sublist_of_out (hout : (asking sent ++ asking a'.out).Sublist (asking a.out))
    (hmail : a'.mail.Sublist a.mail) : (tokens a' (b.receive sent)).Sublist (tokens a b) := by
  have hans : (answering a'.mail).Sublist (answering a.mail) := (hmail.filter _).map _
  simp only [tokens, Party.receive, asking_append, List.append_assoc]
  refine List.Sublist.append (.refl _) ?_
  rw [← List.append_assoc]
  exact hout.append ((List.Sublist.refl _).append (hans.append (.refl _)))

/-- **The asking party goes on** and waits for an acknowledgment no less than before. -/
theorem Flow.stay (h : Flow a b read handed delivered)
    (hout : (asking sent ++ asking a'.out).Sublist (asking a.out))
    (hmail : a'.mail.Sublist a.mail) (hslack : a.slack ≤ a'.slack)
    (hquiet : a'.isQuiet = true → a.isQuiet = true)
    (hshut : a.connection.state.isShut = true → a'.connection.state.isShut = true)
    (hfin : ∀ s ∈ sent ++ a'.out, s.header.control.fin = true →
      s ∈ a.out ∨ a'.connection.state.isShut = true) :
    Flow a' (b.receive sent) read handed delivered := by
  have hsub := tokens_sublist_of_out (b := b) hout hmail
  exact h.keep (fun p hp => hsub.subset hp) (Nat.le_trans hsub.length_le (Nat.le_trans h.count hslack))
    (fun hq => h.quiet (hquiet hq)) hshut hfin

/-- **The asking party takes the acknowledgment**, after which no token is out. -/
theorem Flow.settle (h : Flow a b read handed delivered) {s : Segment}
    (hm : a.mail = s :: a'.mail) (hs : s.answers = true) (hout : asking a'.out = [])
    (hshut : a.connection.state.isShut = true → a'.connection.state.isShut = true)
    (hfin : ∀ t ∈ a'.out, t.header.control.fin = true → a'.connection.state.isShut = true) :
    Flow a' (b.receive []) read handed delivered := by
  have hans : answering a.mail = [] :: answering a'.mail := by simp [answering, hm, hs]
  have hlen := Nat.le_trans h.count a.slack_le
  simp only [tokens, hans, List.length_append, List.length_cons] at hlen
  -- the acknowledgment was the only token
  have hnil : tokens a' (b.receive []) = [] := by
    refine List.eq_nil_of_length_eq_zero ?_
    simp only [tokens, Party.receive_nil, hout, List.append_nil, List.length_append]
    omega
  refine h.keep (by rw [hnil]; nofun) (by rw [hnil]; exact Nat.zero_le _) (fun _ => ?_) hshut ?_
  · have hmem : [] ∈ tokens a b := by simp [tokens, hans]
    simpa using h.owed [] hmem
  · intro t ht hf
    exact .inr (hfin t ht hf)

/-- **A party asks for an acknowledgment**: the token is what it has just read, if anything. -/
theorem Flow.ask (h : Flow a b read handed delivered) {s : Segment} (hs : a.slack = 0)
    (hq : a.isQuiet = true) (hout : a'.out = [s]) (hasks : s.asks = true)
    (hmail : ∀ t ∈ a'.mail, t ∈ a.mail) (hslack : a'.slack = 1)
    (hquiet : a'.isQuiet = true → s.payload = [])
    (hshut : a.connection.state.isShut = true → a'.connection.state.isShut = true)
    (hread : a.connection.state.isShut = true → s.payload = [])
    (hfin : s.header.control.fin = true → a'.connection.state.isShut = true) :
    Flow a' (b.receive []) (read ++ s.payload) handed delivered := by
  have hrd : read = delivered := h.quiet hq
  have hnil := h.tokens_eq_nil hs
  simp only [tokens, List.append_eq_nil_iff] at hnil
  -- no token was out before
  obtain ⟨⟨⟨⟨hbm, -⟩, hbh⟩, ham⟩, hbo⟩ := hnil
  have hmail' : answering a'.mail = [] := by
    refine List.eq_nil_iff_forall_not_mem.2 fun q hq => ?_
    obtain ⟨t, ht, rfl⟩ := List.mem_map.1 hq
    rw [List.mem_filter] at ht
    have : ([] : List UInt8) ∈ answering a.mail :=
      List.mem_map.2 ⟨t, List.mem_filter.2 ⟨hmail t ht.1, ht.2⟩, rfl⟩
    rw [ham] at this
    cases this
  -- and one is out now
  have htok : tokens a' (b.receive []) = [s.payload] := by
    have hask : asking [s] = [s.payload] := by simp [asking, hasks]
    simp only [tokens, Party.receive_nil, hbm, hout, hask, hbh, hmail', hbo, List.nil_append,
      List.append_nil]
  constructor
  · rw [htok, hslack]
    exact Nat.le_refl 1
  · intro payload hp
    rw [htok, List.mem_singleton] at hp
    rw [hp, hrd]
  · intro hq'
    rw [hquiet hq', hrd, List.append_nil]
  · exact h.whole
  · exact ⟨h.sub.1, h.sub.2.trans (List.prefix_append _ _)⟩
  · rintro ⟨t, ht, hf⟩
    rw [hout, Party.receive_nil, List.mem_append, List.mem_singleton] at ht
    rcases ht with ht | rfl
    · exact hshut (h.fin ⟨t, List.mem_append_left _ ht, hf⟩)
    · exact hfin hf
  · intro hb
    have hsh := (h.heard hb).1
    exact ⟨hshut hsh, by rw [hread hsh, List.append_nil, hrd]⟩

/-- **A party asks for an acknowledgment** with a segment that carries nothing. -/
theorem Flow.ask_nothing (h : Flow a b read handed delivered) {s : Segment} (hs : a.slack = 0)
    (hq : a.isQuiet = true) (hout : a'.out = [s]) (hasks : s.asks = true) (hnil : s.payload = [])
    (hmail : ∀ t ∈ a'.mail, t ∈ a.mail) (hslack : a'.slack = 1)
    (hshut : a.connection.state.isShut = true → a'.connection.state.isShut = true)
    (hfin : s.header.control.fin = true → a'.connection.state.isShut = true) :
    Flow a' (b.receive []) read handed delivered := by
  have hask := h.ask hs hq hout hasks hmail hslack (fun _ => hnil) hshut (fun _ => hnil) hfin
  rwa [hnil, List.append_nil] at hask

variable {c₀ c c' : Connection} {x x' : Stage} {mail mail' : List Segment} {call : Call}
  {r : Response}

/-- Only a session that fetches reads from its application. -/
theorem readBytes_of_ne_fetching {p : Point} (hp : x.status c = .suspended p) (hx : x ≠ .fetching) :
    readBytes (p.call c) r = [] := by
  cases x with
  | fetching => exact absurd rfl hx
  | ready | failed | ended => cases hp
  | _ => cases hp; rfl

theorem Goes.readBytes_eq_nil (hg : Goes c x mail call r x' mail' sent) (hx : x ≠ .fetching) :
    readBytes call r = [] := by
  cases hg with
  | fails hp => exact readBytes_of_ne_fetching hp hx
  | writes => exact absurd rfl hx
  | _ => rfl

/-- A party that breaks off leaves the flow. -/
theorem Flow.asker_fails {p : Point} {e : Session.Error}
    (h : Flow ⟨c, x, mail⟩ b read handed delivered) (hp : x.status c = .suspended p)
    (hx : x.Fits c₀ c) (hm : mail'.Sublist mail) (hstate : c'.state = c.state)
    (hdone : c'.done = c.done) :
    Flow ⟨c', .failed e, mail'⟩ (b.receive []) (read ++ readBytes (p.call c) r) handed
      delivered := by
  have hlive : x.Live c := hx.live hp
  have hsub : (tokens ⟨c', .failed e, mail'⟩ (b.receive [])).Sublist (tokens ⟨c, x, mail⟩ b) :=
    tokens_sublist_of_out (List.nil_sublist _) hm
  have hshut : c.state.isShut = true → c'.state.isShut = true := fun hs => hstate ▸ hs
  by_cases hl : c.state = .listen
  · -- in LISTEN nothing was asked for, and nothing is lost
    have hst : x.state = .listen := hlive.state ▸ hl
    have hwait : x = .awaiting .syn ∨ x = .receiving .syn := by
      cases x with
      | awaiting w => cases w <;> first | exact .inl rfl | cases hst
      | receiving w => cases w <;> first | exact .inr rfl | cases hst
      | sending m bytes => cases m <;> cases hst
      | delivering a bytes => cases a <;> cases hst
      | ready | failed | ended => cases hp
      | _ => cases hst
    have hzero : Party.slack ⟨c, x, mail⟩ = 0 := by rcases hwait with rfl | rfl <;> rfl
    have hread : read = delivered := h.quiet (by rcases hwait with rfl | rfl <;> rfl)
    have hnil : readBytes (p.call c) r = [] :=
      readBytes_of_ne_fetching hp (by rcases hwait with rfl | rfl <;> nofun)
    rw [hnil, List.append_nil]
    refine h.keep (fun q hq => hsub.subset hq) ?_ (fun _ => hread) hshut nofun
    exact Nat.le_trans hsub.length_le (Nat.le_trans h.count (hzero ▸ Nat.zero_le _))
  · -- a party that breaks off for good keeps the token
    have hlost : Party.isLost ⟨c', .failed e, mail'⟩ = true := by
      simp [Party.isLost, hstate, hl, hdone, hlive.undone]
    have hslack : Party.slack ⟨c', .failed e, mail'⟩ = 1 := by simp [Party.slack, hlost]
    have hlen := Nat.le_trans hsub.length_le (Nat.le_trans h.count (Party.slack_le _))
    have hkeep : Flow ⟨c', .failed e, mail'⟩ (b.receive []) read handed delivered := by
      refine h.keep (fun q hq => hsub.subset hq) (hslack ▸ hlen) (fun hq => ?_) hshut nofun
      rw [Party.isQuiet, hlost] at hq
      cases hq
    by_cases hf : x = .fetching
    · -- what is read for a segment that is never sent is delivered to nobody
      subst hf
      have hnil := h.tokens_eq_nil rfl
      have hnil' : tokens ⟨c', .failed e, mail'⟩ (b.receive []) = [] :=
        List.sublist_nil.1 (hnil ▸ hsub)
      refine { hkeep with owed := ?_, quiet := ?_, sub := ?_, heard := ?_ }
      · rw [hnil']
        nofun
      · intro hq
        rw [Party.isQuiet, hlost] at hq
        cases hq
      · exact ⟨h.sub.1, h.sub.2.trans (List.prefix_append _ _)⟩
      · intro hb
        have hs : c.state.isShut = true := (h.heard (Party.receive_nil b ▸ hb)).1
        rw [hlive.state] at hs
        cases hs
    · rw [readBytes_of_ne_fetching hp hf, List.append_nil]
      exact hkeep

theorem sublist_of_fails (hm : mail' = mail ∨ ∃ s, mail = s :: mail') : mail'.Sublist mail := by
  rcases hm with rfl | ⟨s, rfl⟩
  · exact .refl _
  · exact List.sublist_cons_self _ _

theorem asks_reissue (m : Message) (bytes : List UInt8) :
    (c.reissue m.kind bytes).asks = decide (m.kind ≠ .ack) := by
  cases m <;> rfl

/-- The segments that a stage hands to the network ask for an acknowledgment if the stage does. -/
theorem asking_outgoing_eq_nil (h : x.asks = false) : asking (x.outgoing c) = [] := by
  cases x with
  | sending m bytes =>
    have hk : (c.reissue m.kind (m.payload bytes)).asks = false := (asks_reissue m _).trans h
    simp [Stage.outgoing, asking, hk]
  | _ => rfl

/-- A segment that does as an acknowledging kind brings an acknowledgment. -/
theorem answers_of_accepts {k : Kind} {s : Segment} (h : k.accepts s.header.control = true)
    (hk : k.control.ack = true) : s.answers = true := Kind.ack_of_accepts h hk

/-- **The asking party takes an awaited segment**, which answers what it has asked, or asks for the
first time. -/
theorem Flow.asker_accepts {w : Wait} {s : Segment} (hk : w.kind.accepts s.header.control = true)
    (hx' : (w.after s.payload).2.Fits c₀ c')
    (hshut : c.state.isShut = true → c'.state.isShut = true)
    (h : Flow ⟨c, .receiving w, s :: mail⟩ b read handed delivered) :
    Flow ⟨c', (w.after s.payload).2, mail⟩ (b.receive []) read handed delivered := by
  cases w with
  | syn =>
    exact h.ask_nothing (s := c'.reissue .synAck []) rfl rfl rfl rfl rfl
      (fun t ht => List.mem_cons_of_mem _ ht) rfl hshut nofun
  | synAck =>
    -- the answer to the SYN settles it
    refine h.settle rfl (answers_of_accepts hk rfl) rfl hshut ?_
    intro t ht hf
    obtain rfl := List.mem_singleton.1 ht
    cases hf
  | opening | data | fin | lastFin =>
    exact h.settle rfl (answers_of_accepts hk rfl) rfl hshut nofun
  | peerFin =>
    have hst : c'.state = .closed := state_of_peerFin hx'
    have hasks : (Wait.peerFin.after s.payload).2.asks = false := by
      simp only [Wait.after, Arrival.begin]
      split <;> rfl
    refine h.stay ?_ (List.sublist_cons_self _ _) (Nat.zero_le _) (fun _ => rfl) hshut
      (fun t ht hf => .inr (by rw [hst]; rfl))
    rw [Party.out, asking_outgoing_eq_nil hasks]
    exact .refl _

/-- **The asking party sends its segment**, which goes to the peer, or is lost. -/
theorem Flow.asker_posts {m : Message} {bytes : List UInt8}
    (hs : sent = (Stage.sending m bytes).outgoing c ∨ sent = [])
    (hshut : c.state.isShut = true → c'.state.isShut = true)
    (h : Flow ⟨c, .sending m bytes, mail⟩ b read handed delivered) :
    Flow ⟨c', (m.after bytes).2, mail⟩ (b.receive sent) read handed delivered := by
  have hnone : Stage.outgoing c' (m.after bytes).2 = [] := outgoing_after m bytes
  refine h.stay ?_ (.refl _) (by cases m <;> exact Nat.le_refl _) (by cases m <;> exact id) hshut ?_
  · rw [Party.out, hnone, asking_nil, List.append_nil]
    rcases hs with rfl | rfl
    · exact .refl _
    · exact List.nil_sublist _
  · intro t ht _
    rw [Party.out, hnone, List.append_nil] at ht
    rcases hs with rfl | rfl
    · exact .inl ht
    · cases ht

/-- **A turn of the asking party** that reads nothing keeps the flow. -/
theorem Flow.asker_quiet (hg : Goes c x mail call r x' mail' sent) (hx : x.Fits c₀ c)
    (hx' : x'.Fits c₀ c') (hfetch : x ≠ .fetching)
    (hkept : ∀ e, x' = .failed e → c'.state = c.state ∧ c'.done = c.done)
    (hshut : c.state.isShut = true → c'.state.isShut = true)
    (h : Flow ⟨c, x, mail⟩ b read handed delivered) :
    Flow ⟨c', x', mail'⟩ (b.receive sent) read handed delivered := by
  -- an acknowledgment asks for nothing, and is no FIN
  have hack : ∀ {bytes : List UInt8}, ∀ t ∈ [c'.reissue .ack bytes], t.header.control.fin = true →
      t ∈ Party.out ⟨c, x, mail⟩ ∨ c'.state.isShut = true := by
    intro bytes t ht hf
    obtain rfl := List.mem_singleton.1 ht
    cases hf
  cases hg with
  | fails hp hm =>
    rename_i e
    obtain ⟨hst, hd⟩ := hkept e rfl
    have hfails := h.asker_fails (r := r) (e := e) hp hx (sublist_of_fails hm) hst hd
    rwa [readBytes_of_ne_fetching hp hfetch, List.append_nil] at hfails
  | writes => exact absurd rfl hfetch
  | hears | fetches | opens => exact h.stay (.refl _) (.refl _) (Nat.le_refl _) id hshut nofun
  | drops | takes =>
    exact h.stay (.refl _) (List.sublist_cons_self _ _) (Nat.le_refl _) id hshut nofun
  | closes | signals =>
    exact h.ask_nothing (s := c'.reissue .fin []) rfl rfl rfl rfl rfl (fun t ht => ht) rfl hshut
      (fun _ => by rw [hx'.1.state]; rfl)
  | takesFin =>
    exact h.stay (List.nil_sublist _) (List.sublist_cons_self _ _) (Nat.le_refl _) id hshut hack
  | hands => exact h.stay (List.nil_sublist _) (.refl _) (Nat.le_refl _) id hshut hack
  | @awaits _ w =>
    exact h.stay (.refl _) (.refl _) (Nat.le_refl _) (by cases w <;> exact id) hshut nofun
  | accepts hk => exact h.asker_accepts hk hx' hshut
  | posts hs => exact h.asker_posts hs hshut

/-- **A turn of the asking party keeps the flow.** -/
theorem Flow.asker (hg : Goes c x mail call r x' mail' sent) (hx : x.Fits c₀ c)
    (hx' : x'.Fits c₀ c')
    (hkept : ∀ e, x' = .failed e → c'.state = c.state ∧ c'.done = c.done)
    (h : Flow ⟨c, x, mail⟩ b read handed delivered) :
    Flow ⟨c', x', mail'⟩ (b.receive sent) (read ++ readBytes call r) handed delivered := by
  -- an end that has sent its FIN has sent it for good
  have hshut : c.state.isShut = true → c'.state.isShut = true :=
    (hg.follows hx hx' fun e he => (hkept e he).1).isShut
  by_cases hfetch : x = .fetching
  · subst hfetch
    cases hg with
    | fails hp hm =>
      obtain ⟨hst, hd⟩ := hkept _ rfl
      exact h.asker_fails hp hx (sublist_of_fails hm) hst hd
    | writes hb =>
      refine h.ask (s := c'.reissue .data _) rfl rfl rfl rfl (fun t ht => ht) rfl nofun hshut ?_
        nofun
      -- an end that reads is open
      intro hs
      rw [hx.1.state] at hs
      cases hs
  · rw [hg.readBytes_eq_nil hfetch, List.append_nil]
    exact h.asker_quiet hg hx hx' hfetch hkept hshut

end Session

end StopWait
