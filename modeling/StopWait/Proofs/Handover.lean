import StopWait.Proofs.Flow

/-!
# Taking part in a flow

The other end of a flow: what the party does that hands the data to its application, and how
either party comes and goes.

* `Flow.taker`: a turn of the party that hands over keeps the flow.
* `Flow.asker_begins`, `Flow.taker_begins`: so does the beginning of a run.
* `Flow.asker_rests`, `Flow.taker_rests`: and so does the end of a session.
-/

namespace StopWait.Session

open Link (readBytes handedBytes deliveredBytes)

variable {a b b' : Party} {read handed delivered : List UInt8} {sent : List Segment}
  {c₀ c c' : Connection} {x x' : Stage} {mail mail' : List Segment} {call : Call} {r : Response}

/-- The taking party goes on without a new token. -/
theorem Flow.pass (h : Flow a b read handed delivered)
    (hsub : ∀ payload ∈ tokens (a.receive sent) b', payload ∈ tokens a b)
    (hlen : (tokens (a.receive sent) b').length ≤ (tokens a b).length)
    (hmail : ∀ s ∈ b'.mail, s ∈ b.mail)
    (hwhole : b'.isLost = false → handed = delivered)
    (hheard : b'.connection.state.hasHeardFin = true →
      b.connection.state.hasHeardFin = true ∨
        (a.connection.state.isShut = true ∧ read = delivered)) :
    Flow (a.receive sent) b' read handed delivered where
  count := Nat.le_trans hlen h.count
  owed := fun payload hp => h.owed payload (hsub payload hp)
  quiet := h.quiet
  whole := hwhole
  sub := h.sub
  fin := by
    rintro ⟨s, hs, hf⟩
    rcases List.mem_append.1 hs with hm | ho
    · exact h.fin ⟨s, List.mem_append_left _ (hmail s hm), hf⟩
    · exact h.fin ⟨s, List.mem_append_right _ ho, hf⟩
  heard := fun hb => (hheard hb).elim h.heard id

/-- What the taking party sends leaves the tokens. -/
theorem tokens_sublist_of_take (hmail : b'.mail.Sublist b.mail)
    (hhand : b'.stage.handing.Sublist b.stage.handing)
    (hout : (answering sent ++ answering b'.out).Sublist (answering b.out)) :
    (tokens (a.receive sent) b').Sublist (tokens a b) := by
  have hask : (asking b'.mail).Sublist (asking b.mail) := (hmail.filter _).map _
  simp only [tokens, Party.receive, answering_append, List.append_assoc]
  exact hask.append ((List.Sublist.refl _).append (hhand.append ((List.Sublist.refl _).append hout)))

/-- **The taking party goes on** and hands nothing over. -/
theorem Flow.drift (h : Flow a b read handed delivered) (hmail : b'.mail.Sublist b.mail)
    (hhand : b'.stage.handing.Sublist b.stage.handing)
    (hout : (answering sent ++ answering b'.out).Sublist (answering b.out))
    (hwhole : b'.isLost = false → b.isLost = false)
    (hheard : b'.connection.state.hasHeardFin = true →
      b.connection.state.hasHeardFin = true) :
    Flow (a.receive sent) b' read handed delivered := by
  have hsub := tokens_sublist_of_take (a := a) hmail hhand hout
  exact h.pass (fun p hp => hsub.subset hp) hsub.length_le (fun s hs => hmail.subset hs)
    (fun hl => h.whole (hwhole hl)) (fun hb => .inl (hheard hb))

/-- **The taking party takes what asks for an acknowledgment**: it hands the payload over or
answers at once, if there is none. -/
theorem Flow.take (h : Flow a b read handed delivered) {s : Segment}
    (hm : b.mail = s :: b'.mail) (hs : s.asks = true)
    (htake : b'.stage.handing ++ answering b'.out = [s.payload])
    (hwhole : b'.isLost = false → b.isLost = false)
    (hheard : b'.connection.state.hasHeardFin = true →
      b.connection.state.hasHeardFin = true ∨
        (s.header.control.fin = true ∧ s.payload = [])) :
    Flow (a.receive []) b' read handed delivered := by
  have hask : asking b.mail = s.payload :: asking b'.mail := by simp [asking, hm, hs]
  have hlen := Nat.le_trans h.count a.slack_le
  have hmem : s.payload ∈ tokens a b := by simp [tokens, hask]
  -- what asked was the only token, and what is handed over replaces it
  have htok : tokens a b' = [s.payload] := by
    simp only [tokens, hask, List.length_append, List.length_cons] at hlen
    have hmail : asking b'.mail = [] := List.eq_nil_of_length_eq_zero (by omega)
    have hout : asking a.out = [] := List.eq_nil_of_length_eq_zero (by omega)
    have hans : answering a.mail = [] := List.eq_nil_of_length_eq_zero (by omega)
    simp only [tokens, hmail, hout, hans, List.nil_append, List.append_nil, htake]
  have hpos := List.length_pos_of_mem hmem
  refine h.pass ?_ ?_ ?_ (fun hl => h.whole (hwhole hl)) ?_
  · rw [Party.receive_nil, htok]
    intro payload hp
    rwa [List.mem_singleton.1 hp]
  · rw [Party.receive_nil, htok]
    exact hpos
  · intro t ht
    rw [hm]
    exact List.mem_cons_of_mem _ ht
  · intro hb
    refine (hheard hb).imp_right fun hfin => ⟨h.fin ⟨s, by simp [hm], hfin.1⟩, ?_⟩
    rw [h.owed _ hmem, hfin.2, List.append_nil]

/-- What is being handed over is all that is out. -/
theorem Flow.tokens_of_handing (h : Flow a b read handed delivered) {bytes : List UInt8}
    (hb : b.stage.handing = [bytes]) :
    read = delivered ++ bytes ∧ asking b.mail = [] ∧ asking a.out = [] ∧ answering a.mail = [] := by
  have hlen := Nat.le_trans h.count a.slack_le
  simp only [tokens, hb, List.length_append, List.length_singleton] at hlen
  refine ⟨h.owed bytes (by simp [tokens, hb]), ?_, ?_, ?_⟩ <;>
    exact List.eq_nil_of_length_eq_zero (by omega)

/-- A party that breaks off while it hands a payload over leaves it to the application whether the
payload counts as taken. -/
theorem Flow.taker_breaks {bytes : List UInt8} {e : Session.Error}
    (h : Flow a ⟨c, .delivering .data bytes, mail⟩ read handed delivered)
    (hx : (Stage.delivering .data bytes).Fits c₀ c) (hm : mail'.Sublist mail)
    (hstate : c'.state = c.state) (hdone : c'.done = c.done) :
    Flow (a.receive []) ⟨c', .failed e, mail'⟩ read (handed ++ bytes)
      (delivered ++ deliveredBytes (.appSend bytes) r) := by
  obtain ⟨hread, hbm, hao, ham⟩ := h.tokens_of_handing rfl
  have hst : c'.state = .established := hstate.trans hx.1.state
  have hwhole : handed = delivered := h.whole rfl
  have hne : bytes ≠ [] := hx.1.sound
  have hbm' : asking mail' = [] := List.sublist_nil.1 (hbm ▸ (hm.filter _).map _)
  have htok : tokens a ⟨c', .failed e, mail'⟩ = [] := by
    have hbo : answering (Party.out ⟨c', .failed e, mail'⟩) = [] := rfl
    simp only [tokens, hbm', hao, ham, hbo, Stage.handing, List.append_nil]
  have hlost : Party.isLost ⟨c', .failed e, mail'⟩ = true := by
    simp [Party.isLost, hst, hdone, hx.1.undone]
  rw [Party.receive_nil]
  refine ⟨?_, ?_, ?_, ?_, ?_, ?_, ?_⟩
  · rw [htok]
    exact Nat.zero_le _
  · rw [htok]
    simp
  · intro hq
    -- the asker knows nothing of the delivery while the payload is handed over
    have hrd := h.quiet hq
    rw [hread] at hrd
    exact absurd (List.append_right_eq_self.1 hrd) hne
  · intro hl
    -- what the application took is not known here
    rw [hlost] at hl
    cases hl
  · rw [hread, hwhole]
    refine ⟨?_, List.prefix_refl _⟩
    cases r with
    | told => exact List.prefix_refl _
    | _ => simp [deliveredBytes]
  · rintro ⟨s, hs, hf⟩
    refine h.fin ⟨s, ?_, hf⟩
    rcases List.mem_append.1 hs with hs | hs
    · exact List.mem_append_left _ (hm.subset hs)
    · exact List.mem_append_right _ hs
  · intro hb
    simp only [hst, State.hasHeardFin] at hb
    cases hb

/-- A session that waits on a call has not broken off. -/
theorem isLost_of_suspended {p : Point} (hp : x.status c = .suspended p) :
    Party.isLost ⟨c, x, mail⟩ = false := by
  cases x with
  | ready | failed | ended => cases hp
  | _ => rfl

/-- What the application takes is what it is handed, or nothing. -/
theorem deliveredBytes_prefix (call : Call) (r : Response) :
    deliveredBytes call r <+: handedBytes call := by
  cases call <;> cases r <;> first | exact List.prefix_refl _ | exact List.nil_prefix

/-- Only a session that delivers hands anything over. -/
theorem Goes.handedBytes_eq_nil (hg : Goes c x mail call r x' mail' sent)
    (hx : ∀ a bytes, x ≠ .delivering a bytes) : handedBytes call = [] := by
  cases hg with
  | hands => exact absurd rfl (hx _ _)
  | fails hp =>
    cases x with
    | delivering a bytes => exact absurd rfl (hx a bytes)
    | ready | failed | ended => cases hp
    | _ => cases hp; rfl
  | _ => rfl

theorem Goes.deliveredBytes_eq_nil (hg : Goes c x mail call r x' mail' sent)
    (hx : ∀ a bytes, x ≠ .delivering a bytes) : deliveredBytes call r = [] :=
  List.prefix_nil.1 (hg.handedBytes_eq_nil hx ▸ deliveredBytes_prefix call r)

/-- What asks for an acknowledgment: all that does as another kind. -/
theorem asks_of_accepts {k : Kind} {s : Segment} (h : k.accepts s.header.control = true)
    (hk : k.control.syn = true ∨ k.control.fin = true) : s.asks = true := by
  rw [Segment.asks, decide_eq_true_iff]
  intro hs
  rw [hs] at h
  revert h hk
  cases k <;> decide

/-- Data does as no awaited kind. -/
theorem ne_data_of_accepts {w : Wait} {s : Segment} (h : w.kind.accepts s.header.control = true) :
    s.header.control ≠ Kind.data.control := by
  intro hs
  rw [hs] at h
  cases w <;> cases h

/-- **The application takes what it is handed**, and the acknowledgment goes out. -/
theorem Flow.hand {bytes : List UInt8}
    (h : Flow a ⟨c, .delivering .data bytes, mail⟩ read handed delivered)
    (hx : (Stage.delivering .data bytes).Fits c₀ c) (hst : c'.state = .established) :
    Flow (a.receive []) ⟨c', .sending .dataAck bytes, mail⟩ read (handed ++ bytes)
      (delivered ++ bytes) := by
  obtain ⟨hread, hbm, hao, ham⟩ := h.tokens_of_handing rfl
  have hne : bytes ≠ [] := hx.1.sound
  have hwhole : handed = delivered := h.whole rfl
  have htok : tokens a ⟨c', .sending .dataAck bytes, mail⟩ = [[]] := by
    -- the payload is replaced by its acknowledgment
    have hbo : answering (Party.out ⟨c', .sending .dataAck bytes, mail⟩) = [[]] := rfl
    rw [show asking (Party.mail ⟨c, .delivering .data bytes, mail⟩) = asking mail from rfl] at hbm
    simp only [tokens, hbm, hao, ham, hbo, Stage.handing, List.append_nil, List.nil_append]
  have hpos : (tokens a ⟨c, .delivering .data bytes, mail⟩).length ≤ a.slack := h.count
  have hone : 1 ≤ (tokens a ⟨c, .delivering .data bytes, mail⟩).length :=
    List.length_pos_of_mem (a := bytes) (by simp [tokens, Stage.handing])
  rw [Party.receive_nil]
  refine ⟨?_, ?_, ?_, ?_, ?_, ?_, ?_⟩
  · rw [htok]
    exact Nat.le_trans hone hpos
  · rw [htok]
    intro payload hp
    rw [List.mem_singleton.1 hp, List.append_nil, hread]
  · intro hq
    have hrd := h.quiet hq
    rw [hread] at hrd
    exact absurd (List.append_right_eq_self.1 hrd) hne
  · intro _
    rw [hwhole]
  · rw [hread, hwhole]
    exact ⟨List.prefix_refl _, List.prefix_refl _⟩
  · exact h.fin
  · intro hb
    simp only [hst, State.hasHeardFin] at hb
    cases hb

/-- An end in a state that has heard no FIN did not hear one before. -/
theorem heardFin_of_deaf {st : State} (hst : c'.state = st) (hs : st.hasHeardFin = false)
    (hb : c'.state.hasHeardFin = true) : c.state.hasHeardFin = true := by
  rw [hst, hs] at hb
  cases hb

/-- **The taking party takes an awaited segment**, which answers what it has asked, or asks for an
acknowledgment. -/
theorem Flow.taker_accepts {w : Wait} {s : Segment} (hk : w.kind.accepts s.header.control = true)
    (hs : s.Regular) (hx : (Stage.receiving w).Fits c₀ c) (hx' : (w.after s.payload).2.Fits c₀ c')
    (h : Flow a ⟨c, .receiving w, s :: mail⟩ read handed delivered) :
    Flow (a.receive []) ⟨c', (w.after s.payload).2, mail⟩ read handed delivered := by
  have hpay : s.payload = [] := hs.payload_eq_nil (ne_data_of_accepts hk)
  have hskip : (List.nil : List (List UInt8)).Sublist [] := .refl _
  cases w with
  | syn | synAck =>
    exact h.take rfl (asks_of_accepts hk (.inl rfl)) (by rw [hpay]; rfl) id
      (fun hb => .inl (heardFin_of_deaf hx'.1.state rfl hb))
  | opening | data | fin =>
    exact h.drift (List.sublist_cons_self _ _) hskip hskip id (heardFin_of_deaf hx'.1.state rfl)
  | lastFin =>
    exact h.drift (List.sublist_cons_self _ _) hskip hskip id (fun _ => by rw [hx.1.state]; rfl)
  | peerFin =>
    rw [hpay]
    have hfin : s.header.control.fin = true := by
      simp only [Kind.accepts, Control.contains, Wait.kind, Bool.and_eq_true] at hk
      simpa [Kind.control] using hk.2
    exact h.take rfl (asks_of_accepts hk (.inr rfl)) (by rw [hpay]; rfl) id
      (fun _ => .inr ⟨hfin, hpay⟩)

/-- **The taking party sends its segment**, which goes to the peer, or is lost. -/
theorem Flow.taker_posts {m : Message} {bytes : List UInt8}
    (hs : sent = (Stage.sending m bytes).outgoing c ∨ sent = []) (hst : c'.state = c.state)
    (h : Flow a ⟨c, .sending m bytes, mail⟩ read handed delivered) :
    Flow (a.receive sent) ⟨c', (m.after bytes).2, mail⟩ read handed delivered := by
  have hnone : Stage.outgoing c' (m.after bytes).2 = [] := outgoing_after m bytes
  refine h.drift (.refl _) (by cases m <;> exact .refl _) ?_ (fun _ => rfl) (fun hb => hst ▸ hb)
  rw [Party.out, hnone, answering_nil, List.append_nil]
  rcases hs with rfl | rfl
  · exact .refl _
  · exact List.nil_sublist _

/-- **A turn of the taking party** that hands nothing over keeps the flow. -/
theorem Flow.taker_quiet (hg : Goes c x mail call r x' mail' sent) (hx : x.Fits c₀ c)
    (hx' : x'.Fits c₀ c') (hhand : ∀ arr bytes, x ≠ .delivering arr bytes)
    (hreg : ∀ s ∈ mail, s.Regular) (hkept : ∀ e, x' = .failed e → c'.state = c.state)
    (h : Flow a ⟨c, x, mail⟩ read handed delivered) :
    Flow (a.receive sent) ⟨c', x', mail'⟩ read handed delivered := by
  cases hg with
  | fails hp hm =>
    exact h.drift (sublist_of_fails hm) (List.nil_sublist _) (List.nil_sublist _)
      (fun _ => isLost_of_suspended hp) (fun hb => hkept _ rfl ▸ hb)
  | hands => exact absurd rfl (hhand _ _)
  | hears | fetches | opens =>
    exact h.drift (.refl _) (.refl _) (.refl _) id (heardFin_of_deaf hx'.1.state rfl)
  | closes | writes =>
    exact h.drift (.refl _) (.refl _) (List.nil_sublist _) id (heardFin_of_deaf hx'.1.state rfl)
  | drops =>
    exact h.drift (List.sublist_cons_self _ _) (.refl _) (.refl _) id
      (heardFin_of_deaf hx'.1.state rfl)
  | takes hs =>
    -- data is handed over first
    refine h.take rfl ?_ (List.append_nil _) id
      (fun hb => .inl (heardFin_of_deaf hx'.1.state rfl hb))
    rw [Segment.asks, hs]
    rfl
  | @takesFin s _ hs =>
    have hpay : s.payload = [] :=
      (hreg s List.mem_cons_self).payload_eq_nil (by rw [hs]; nofun)
    -- a FIN is acknowledged at once
    refine h.take rfl ?_ ?_ id (fun _ => .inr ⟨by rw [hs]; rfl, hpay⟩)
    · rw [Segment.asks, hs]
      rfl
    · rw [hpay]
      rfl
  | awaits =>
    exact h.drift (.refl _) (.refl _) (.refl _) id
      (fun hb => hx.1.state.symm ▸ hx'.1.state ▸ hb)
  | accepts hk => exact h.taker_accepts hk (hreg _ List.mem_cons_self) hx hx'
  | posts hs => exact h.taker_posts hs (state_of_sent hx hx')
  | signals =>
    exact h.drift (.refl _) (.refl _) (List.nil_sublist _) id (fun _ => by rw [hx.1.state]; rfl)

/-- **A turn of the taking party keeps the flow.** -/
theorem Flow.taker (hg : Goes c x mail call r x' mail' sent) (hx : x.Fits c₀ c)
    (hx' : x'.Fits c₀ c') (hclean : x.Clean) (hreg : ∀ s ∈ mail, s.Regular)
    (hkept : ∀ e, x' = .failed e → c'.state = c.state ∧ c'.done = c.done)
    (h : Flow a ⟨c, x, mail⟩ read handed delivered) :
    Flow (a.receive sent) ⟨c', x', mail'⟩ read (handed ++ handedBytes call)
      (delivered ++ deliveredBytes call r) := by
  by_cases hhand : ∃ arr bytes, x = .delivering arr bytes
  · obtain ⟨arr, bytes, rfl⟩ := hhand
    obtain rfl : arr = .data := hclean
    cases hg with
    | fails hp hm =>
      obtain ⟨hst, hd⟩ := hkept _ rfl
      cases hp
      exact h.taker_breaks hx (sublist_of_fails hm) hst hd
    | hands => exact h.hand hx hx'.1.state
  · have hne : ∀ arr bytes, x ≠ .delivering arr bytes := fun arr bytes hx => hhand ⟨arr, bytes, hx⟩
    rw [hg.handedBytes_eq_nil hne, hg.deliveredBytes_eq_nil hne, List.append_nil, List.append_nil]
    exact h.taker_quiet hg hx hx' hne hreg fun e he => (hkept e he).1

theorem outgoing_of_rests (hx : x.rests = true) : x.outgoing c = [] := by
  cases x <;> first | rfl | cases hx

theorem slack_of_rests (hx : x.rests = true) :
    Party.slack ⟨c, x, mail⟩ = if Party.isLost ⟨c, x, mail⟩ then 1 else 0 := by
  have hasks : x.asks = false := by cases x <;> first | rfl | cases hx
  simp only [Party.slack, hasks, Bool.or_false]

theorem isQuiet_of_rests (hx : x.rests = true) :
    Party.isQuiet ⟨c, x, mail⟩ = !Party.isLost ⟨c, x, mail⟩ := by
  have hflies : x.flies = false := by cases x <;> first | rfl | cases hx
  simp only [Party.isQuiet, hflies, Bool.not_false, Bool.and_true]

/-- An asking party that rests may lose its segments. -/
theorem Flow.asker_rests (h : Flow ⟨c, x, mail⟩ b read handed delivered) (hx : x.rests = true)
    (hx' : x'.rests = true) (hm : mail'.Sublist mail) (hstate : c'.state = c.state)
    (hlost : Party.isLost ⟨c', x', mail'⟩ = Party.isLost ⟨c, x, mail⟩) :
    Flow ⟨c', x', mail'⟩ b read handed delivered := by
  have hout : Party.out ⟨c', x', mail'⟩ = [] := outgoing_of_rests hx'
  have hstay : Flow ⟨c', x', mail'⟩ (b.receive []) read handed delivered := by
    refine h.stay ?_ hm ?_ ?_ (fun hs => hstate ▸ hs) ?_
    · rw [hout]
      exact List.nil_sublist _
    · exact Nat.le_of_eq (by rw [slack_of_rests hx, slack_of_rests hx', hlost])
    · rw [isQuiet_of_rests hx, isQuiet_of_rests hx', hlost]
      exact id
    · rw [hout]
      nofun
  exact Party.receive_nil b ▸ hstay

/-- A taking party that rests may lose its segments. -/
theorem Flow.taker_rests (h : Flow a ⟨c, x, mail⟩ read handed delivered)
    (hx' : x'.rests = true) (hm : mail'.Sublist mail) (hstate : c'.state = c.state)
    (hlost : Party.isLost ⟨c', x', mail'⟩ = Party.isLost ⟨c, x, mail⟩) :
    Flow a ⟨c', x', mail'⟩ read handed delivered := by
  have hout : Party.out ⟨c', x', mail'⟩ = [] := outgoing_of_rests hx'
  have hhand : x'.handing = [] := by cases x' <;> first | rfl | cases hx'
  have hdrift : Flow (a.receive []) ⟨c', x', mail'⟩ read handed delivered := by
    refine h.drift hm ?_ ?_ (fun hl => hlost ▸ hl) (fun hb => hstate ▸ hb)
    · rw [hhand]
      exact List.nil_sublist _
    · rw [hout]
      exact List.nil_sublist _
  exact Party.receive_nil a ▸ hdrift

theorem isLost_of_listen (h : c.state = .listen) : Party.isLost ⟨c, x, mail⟩ = false := by
  cases x <;> simp [Party.isLost, h]

/-- A session that is run again stays lost, or ended. -/
theorem isLost_again {e : Session.Error} (hx : x.rests = true) (hfits : x.Fits c₀ c)
    (h₀ : c₀.Free .listen) (hne : c.state ≠ .listen) :
    Party.isLost ⟨c, .failed e, mail⟩ = Party.isLost ⟨c, x, mail⟩ := by
  cases x with
  | ready => exact absurd (hfits ▸ h₀.state) hne
  | failed e' => rfl
  | ended => simp [Party.isLost, hfits.1]
  | _ => cases hx

/-- **The asking party begins a run.** -/
theorem Flow.asker_begins {y : Connection × Stage} (hy : Begins c₀ c y)
    (h : Flow ⟨c, x, mail⟩ b read handed delivered) (hx : x.rests = true) (hfits : x.Fits c₀ c)
    (h₀ : c₀.Free .listen) (hfits' : y.2.Fits c₀ y.1) :
    Flow ⟨y.1, y.2, mail⟩ b read handed delivered := by
  cases hy with
  | again hne => exact h.asker_rests hx rfl (.refl _) rfl (isLost_again hx hfits h₀ hne)
  | opens first =>
    subst first
    have hlost : Party.isLost ⟨c, x, mail⟩ = false := isLost_of_listen h₀.state
    have hslack : Party.slack ⟨c, x, mail⟩ = 0 := by rw [slack_of_rests hx, hlost]; rfl
    have hquiet : Party.isQuiet ⟨c, x, mail⟩ = true := by rw [isQuiet_of_rests hx, hlost]; rfl
    have hshut : ∀ st : State, c.state.isShut = true → st.isShut = true := by
      intro st hs
      rw [h₀.state] at hs
      cases hs
    rcases hc : carry c (opening c.role) with ⟨d, x'⟩
    obtain ⟨-, hx'⟩ | ⟨-, hx'⟩ := carry_opening h₀ <;> rw [hc] at hx' <;> subst hx'
    · -- the active side asks with its SYN
      have hask : Flow ⟨d, .sending .syn [], mail⟩ (b.receive []) (read ++ []) handed delivered :=
        h.ask (s := d.reissue .syn []) hslack hquiet rfl rfl (fun t ht => ht) rfl (fun _ => rfl)
          (hshut _) (fun _ => rfl) nofun
      rw [Party.receive_nil, List.append_nil] at hask
      exact hask
    · -- the passive side waits
      have hstay : Flow ⟨d, .awaiting .syn, mail⟩ (b.receive []) read handed delivered := by
        refine h.stay (List.nil_sublist _) (.refl _) (hslack ▸ Nat.zero_le _) (fun _ => hquiet)
          (hshut _) nofun
      rw [Party.receive_nil] at hstay
      exact hstay

/-- **The taking party begins a run.** -/
theorem Flow.taker_begins {y : Connection × Stage} (hy : Begins c₀ c y)
    (h : Flow a ⟨c, x, mail⟩ read handed delivered) (hx : x.rests = true) (hfits : x.Fits c₀ c)
    (h₀ : c₀.Free .listen) (hfits' : y.2.Fits c₀ y.1) :
    Flow a ⟨y.1, y.2, mail⟩ read handed delivered := by
  cases hy with
  | again hne => exact h.taker_rests rfl (.refl _) rfl (isLost_again hx hfits h₀ hne)
  | opens first =>
    subst first
    have hlost : Party.isLost ⟨c, x, mail⟩ = false := isLost_of_listen h₀.state
    rcases hc : carry c (opening c.role) with ⟨d, x'⟩
    rw [hc] at hfits'
    have hdrift : Flow (a.receive []) ⟨d, x', mail⟩ read handed delivered := by
      obtain ⟨-, hx'⟩ | ⟨-, hx'⟩ := carry_opening h₀ <;> rw [hc] at hx' <;> subst hx'
      · refine h.drift (.refl _) (List.nil_sublist _) (List.nil_sublist _) (fun _ => hlost) ?_
        intro hb
        rw [hfits'.1.state] at hb
        cases hb
      · refine h.drift (.refl _) (List.nil_sublist _) (List.nil_sublist _) (fun _ => hlost) ?_
        intro hb
        rw [hfits'.1.state] at hb
        cases hb
    exact Party.receive_nil a ▸ hdrift

end StopWait.Session
