import StopWait.Proofs.Delivery

/-!
# Interleavings

The two stacks of a link and their applications, with no session and no script: any of them may
call what it likes at any time. A call that has to wait can be tried again or given up, and a wait
can be given up after some of what it takes in.

* `Use`, `Link.use`, `Usage.after`: what is done with a link, and what any uses come to.
* `Treats`, `treats_use`: **what a use makes of an endpoint**, one case for each way to touch the
  bytes of the application.
* `Books.treats`, `Treats.covered`: a use keeps the books, and reads what was written before a
  close.
* `Treats.closing_of_report`, `Treats.spent`: **what is in the books when a close is reported**, and
  that nothing is added to it.
* `Kept`, `Kept.after`: **what holds after any uses.**
* `app_bytes_kept`: **a stack neither loses nor invents bytes of its application**, and a close does
  not overtake them.
-/

namespace StopWait.Link

open Session (Response response)

/-- One turn of a wait: it takes in one thing at most, unless it can be answered. -/
def Endpoint.glance (e : Endpoint) (peerGone : Bool) (mask : Interest) : Endpoint :=
  match e.verdict mask with
  | some _ => e
  | none => (e.intake peerGone mask).getD e

/-- **A use of a link.** -/
inductive Use where
  /-- A call of a stack is tried, with the timer that an earlier try may have left. -/
  | stack (side : Side) (timer : Option Nat) (call : Call)
  /-- A wait of a stack makes one turn, and is given up. -/
  | glance (side : Side) (mask : Interest)
  /-- A stack is dropped. -/
  | dropStack (side : Side)
  /-- A call of an application is tried. -/
  | app (side : Side) (call : AppCall)
  /-- A handle is dropped. -/
  | dropApp (side : Side)
  /-- The time is set. -/
  | clock (now : Nat)
  /-- The network is exchanged for another one. -/
  | network (network : Network)
deriving DecidableEq, Repr

/-- **What a use makes of a link**, and what is done. Who has been dropped does nothing. -/
def use (l : Link) : Use → Link × Option Deed
  | .stack side timer call =>
    if (l.ends.get side).stackGone then (l, none)
    else ((l.attempt side timer call).1, triedDeed side call (l.attempt side timer call).2)
  | .glance side mask =>
    if (l.ends.get side).stackGone then (l, none)
    else (l.setEnd side ((l.ends.get side).glance (l.peerGone side) mask), none)
  | .dropStack side => (l.dropStack side, none)
  | .app side call =>
    if (l.ends.get side).appGone then (l, none)
    else ((l.attemptApp side call).1, callDeed side call (l.attemptApp side call).2)
  | .dropApp side =>
    if (l.ends.get side).appGone then (l, none) else (l.dropApp side, some (.drop side))
  | .clock now => ({ l with now }, none)
  | .network network => ({ l with network }, none)

/-- A link with what was done. -/
structure Usage where
  link : Link
  deeds : List Deed := []

namespace Usage

variable (h : Usage) (side : Side)

/-- Uses the link. -/
def next (u : Use) : Usage := ⟨(h.link.use u).1, h.deeds ++ (h.link.use u).2.toList⟩

/-- Uses the link any number of times. -/
def after (us : List Use) : Usage := us.foldl next h

/-- All that the application at an end has written. -/
def written : List UInt8 := h.deeds.flatMap (Deed.written side)

/-- All that the stack at an end has read from its application. -/
def read : List UInt8 := h.deeds.flatMap (Deed.read side)

/-- All that the application at an end wrote before it closed, if it has. -/
def closing : Option (List UInt8) := writtenUptoClose side h.deeds

end Usage

/-- A wait of the stack at an end reports an event. -/
def reports (side : Side) (mask : Interest) (event : Event) : Deed :=
  .stack side (.wait mask) (.event event)

/-- **What is done is not done at an end.** -/
structure Elsewhere (side : Side) (d : Option Deed) : Prop where
  written : d.toList.flatMap (Deed.written side) = []
  closing : writtenUptoClose side d.toList = none
  read : d.toList.flatMap (Deed.read side) = []
  still : ∀ call r, d ≠ some (.stack side call r)

/-- **What a use makes of the endpoint at an end.** -/
inductive Treats (side : Side) (e : Endpoint) : Option Deed → Endpoint → Prop where
  /-- A call of its stack is answered. -/
  | answers {losable : Prop} {f e' f' : Endpoint} {call : Call} {r : Response}
    (there : e.stackGone = false) (exchange : Exchange losable e f call r e' f') :
    Treats side e (some (.stack side call r)) e'
  /-- Its application makes a move. -/
  | moves {d : Option Deed} {e' : Endpoint} (heeds : Heeds side e d e') : Treats side e d e'
  /-- Its stack is dropped. -/
  | drops : Treats side e none e.dropStack
  /-- Something else happens that leaves what the application wrote. -/
  | keeps {d : Option Deed} {e' : Endpoint} (elsewhere : Elsewhere side d)
    (same : e'.unread = e.unread ∧ e'.pledged = e.pledged ∧ e'.stackGone = e.stackGone) :
    Treats side e d e'

variable {side s : Side} {e e' f f' : Endpoint} {d : Option Deed} {wrote read : List UInt8}
  {closing : Option (List UInt8)} {h : Usage} {l : Link} {mask : Interest} {gone : Bool}

theorem elsewhere_none : Elsewhere side none := ⟨rfl, rfl, rfl, nofun⟩

theorem elsewhere_stack (hs : s ≠ side) (call : Call) (r : Response) :
    Elsewhere side (some (.stack s call r)) := by
  refine ⟨rfl, rfl, ?_, ?_⟩
  · simp [Deed.read, hs]
  · rintro call r hd
    cases hd
    exact hs rfl

/-- An application makes no call of a stack. -/
theorem Heeds.ne_stack (hd : Heeds s e d e') (call : Call) (r : Response) :
    d ≠ some (.stack side call r) := by
  cases hd with
  | hears hd => rcases hd with rfl | ⟨c, reply, rfl, -⟩ <;> nofun
  | _ => nofun

theorem Heeds.not_here (hd : Heeds s e d e') (hs : s ≠ side) : Elsewhere side d := by
  obtain ⟨hread, -, -, hrest⟩ := hd.elsewhere side
  obtain ⟨hwritten, hclosing⟩ := hrest hs.symm
  exact ⟨hwritten, hclosing, hread, hd.ne_stack⟩

/-- One turn of a wait leaves what waits. -/
theorem Endpoint.same_glance (e : Endpoint) (gone : Bool) (mask : Interest) :
    e.Same gone (e.glance gone mask) := by
  unfold glance
  split
  · exact .refl e
  · rename_i hv
    cases hi : e.intake gone mask with
    | none => exact .refl e
    | some f => exact same_intake hv hi

theorem Endpoint.Same.treats (h : e.Same gone e') : Treats side e none e' :=
  .keeps elsewhere_none ⟨h.unread, h.pledged, h.stack⟩

/-- An end is treated as it is left. -/
theorem treats_self (hd : Elsewhere side d) : Treats side e d e := .keeps hd ⟨rfl, rfl, rfl⟩

/-- **What becomes of an end when the other one is changed.** -/
theorem treats_setEnd (l : Link) (hs : s = side.other) (f : Endpoint) (hd : Elsewhere side d) :
    Treats side (l.ends.get side) d ((l.setEnd s f).ends.get side) := by
  subst hs
  rw [setEnd, Both.get_set_of_other]
  exact treats_self hd

/-- A call of a stack that is tried. -/
theorem treats_attempt (l : Link) (side s : Side) (timer : Option Nat) (call : Call)
    (hg : (l.ends.get s).stackGone = false) :
    Treats side (l.ends.get side) (triedDeed s call (l.attempt s timer call).2)
      ((l.attempt s timer call).1.ends.get side) := by
  have htried := @tried_attempt l s timer call
  generalize l.attempt s timer call = tried at htried ⊢
  obtain ⟨m, progress⟩ := tried
  rcases Side.eq_or_eq_other s side with rfl | rfl
  · cases progress with
    | ready a => exact .answers hg htried
    | blocked t => exact htried.1.treats
  · have hne := Side.other_ne side
    cases progress with
    | ready a =>
      have hspares := Exchange.spares htried
      rw [Side.other_other] at hspares
      exact .keeps (elsewhere_stack hne call _) hspares
    | blocked t =>
      have hother := htried.2
      rw [Side.other_other] at hother
      rw [hother]
      exact treats_self elsewhere_none

/-- **Every use treats an end in one of these ways.** -/
theorem treats_use (l : Link) (side : Side) (u : Use) :
    Treats side (l.ends.get side) (l.use u).2 ((l.use u).1.ends.get side) := by
  cases u with
  | stack s timer call =>
    rw [use]
    by_cases hg : (l.ends.get s).stackGone = true
    · rw [if_pos hg]
      exact treats_self elsewhere_none
    · rw [if_neg hg]
      exact treats_attempt l side s timer call (by simpa using hg)
  | glance s mask =>
    rw [use]
    by_cases hg : (l.ends.get s).stackGone = true
    · rw [if_pos hg]
      exact treats_self elsewhere_none
    · rw [if_neg hg]
      rcases Side.eq_or_eq_other s side with rfl | hs
      · rw [setEnd, Both.get_set_self]
        exact ((l.ends.get s).same_glance _ mask).treats
      · exact treats_setEnd l hs _ elsewhere_none
  | dropStack s =>
    rcases Side.eq_or_eq_other s side with rfl | hs
    · rw [use, Link.dropStack, setEnd, Both.get_set_self]
      exact .drops
    · exact treats_setEnd l hs _ elsewhere_none
  | app s call =>
    rw [use]
    by_cases hg : (l.ends.get s).appGone = true
    · rw [if_pos hg]
      exact treats_self elsewhere_none
    · rw [if_neg hg]
      have hheeds := @heeds_attempt s _ call (by simpa using hg)
      rcases Side.eq_or_eq_other s side with rfl | hs
      · simp only [attemptApp, setEnd, Both.get_set_self]
        exact .moves hheeds
      · exact treats_setEnd l hs _ (hheeds.not_here (hs ▸ Side.other_ne side))
  | dropApp s =>
    rw [use]
    by_cases hg : (l.ends.get s).appGone = true
    · rw [if_pos hg]
      exact treats_self elsewhere_none
    · rw [if_neg hg]
      rcases Side.eq_or_eq_other s side with rfl | hs
      · rw [Link.dropApp, setEnd, Both.get_set_self]
        exact .moves .drops
      · have hheeds := @Heeds.drops s (l.ends.get s)
        exact treats_setEnd l hs _ (hheeds.not_here (hs ▸ Side.other_ne side))
  | clock | network => exact treats_self elsewhere_none

/-! ### The books -/

/-- **A use keeps the books.** -/
theorem Books.treats (h : Books e wrote read closing) (ht : Treats side e d e') :
    Books e' (wrote ++ d.toList.flatMap (Deed.written side))
      (read ++ d.toList.flatMap (Deed.read side))
      (closing.or ((writtenUptoClose side d.toList).map (wrote ++ ·))) := by
  cases ht with
  | @answers losable f _ f' call r there exchange =>
    have hwritten : [Deed.stack side call r].flatMap (Deed.written side) = [] := rfl
    have hclosing : writtenUptoClose side [Deed.stack side call r] = none := rfl
    have hread : [Deed.stack side call r].flatMap (Deed.read side) = readBytes call r := by
      simp [Deed.read]
    rw [Option.toList_some, hwritten, hclosing, hread, List.append_nil, Option.map_none,
      Option.or_none]
    exact h.exchange exchange there
  | moves heeds =>
    rw [(heeds.elsewhere side).1, List.append_nil]
    exact h.heeds heeds
  | drops =>
    have hclosing : writtenUptoClose side [] = none := rfl
    rw [Option.toList_none, hclosing, List.flatMap_nil, List.flatMap_nil, List.append_nil,
      List.append_nil, Option.map_none, Option.or_none]
    exact h.dropStack
  | keeps elsewhere same =>
    rw [elsewhere.written, elsewhere.closing, elsewhere.read, List.append_nil, List.append_nil,
      Option.map_none, Option.or_none]
    exact h.congr same.1 same.2.1 same.2.2

/-- What a stack has read was written before a close. -/
theorem Books.covered (h : Books e wrote read closing) (hg : e.stackGone = false) :
    read <+: closing.getD wrote := by
  rw [h.pledge hg]
  cases e.pledged with
  | none => exact h.sub
  | some bytes => exact List.prefix_append _ _

/-- A stack that is gone reads nothing. -/
theorem Treats.read_of_gone (ht : Treats side e d e') (hg : e'.stackGone = true) :
    d.toList.flatMap (Deed.read side) = [] := by
  cases ht with
  | answers there exchange =>
    have hthere := exchange.spends.2.2.trans there
    rw [hg] at hthere
    cases hthere
  | moves heeds => exact (heeds.elsewhere side).1
  | drops => rfl
  | keeps elsewhere => exact elsewhere.read

/-- **A use reads what was written before a close.** -/
theorem Treats.covered (ht : Treats side e d e') (h : Books e wrote read closing)
    (hc : read <+: closing.getD wrote) :
    read ++ d.toList.flatMap (Deed.read side) <+:
      (closing.or ((writtenUptoClose side d.toList).map (wrote ++ ·))).getD
        (wrote ++ d.toList.flatMap (Deed.written side)) := by
  by_cases hg : e'.stackGone = true
  · -- nothing is read, and what was written before a close can only grow
    rw [ht.read_of_gone hg, List.append_nil]
    refine hc.trans ?_
    cases closing with
    | some bytes => exact List.prefix_refl _
    | none => cases writtenUptoClose side d.toList <;> exact List.prefix_append _ _
  · rw [Bool.not_eq_true] at hg
    exact (h.treats ht).covered hg

/-- **A close is reported only when all that was written before it has been read.** -/
theorem Treats.closing_of_report (ht : Treats side e d e') (h : Books e wrote read closing)
    (hd : d = some (reports side mask .appCloseRequested)) : closing = some read := by
  cases ht with
  | @answers losable f _ f' call r there exchange =>
    cases hd
    obtain ⟨-, hspends, -⟩ := exchange.spends
    rw [exchange.pledged_of_close rfl rfl] at hspends
    have hpledge := h.pledge there
    rw [hspends] at hpledge
    rw [hpledge]
    exact congrArg some (List.append_nil read)
  | moves heeds => exact absurd hd (heeds.ne_stack _ _)
  | drops => cases hd
  | keeps elsewhere => exact absurd hd (elsewhere.still _ _)

/-- Where nothing more is pledged, nothing can be read. -/
theorem Endpoint.buffer_of_pledged (hp : e.pledged = some []) : e.buffer = [] := by
  unfold pledged at hp
  split at hp
  · exact Option.some.inj hp
  · split at hp
    · exact (List.append_eq_nil_iff.1 (Option.some.inj hp)).1
    · split at hp
      · exact (List.append_eq_nil_iff.1 (Option.some.inj hp)).1
      · cases hp

/-- Once all that was written before a close has been read, nothing more is pledged. -/
theorem Books.pledged_of_spent (h : Books e wrote read (some read)) (hg : e.stackGone = false) :
    e.pledged = some [] := by
  obtain ⟨bytes, hp, hread⟩ := Option.map_eq_some_iff.1 (h.pledge hg).symm
  have hnil : bytes = [] := by simpa using hread
  rw [hp, hnil]

/-- **Once all that was written before a close has been read, nothing more is**, and no wait reports
bytes. -/
theorem Treats.spent (ht : Treats side e d e') (h : Books e wrote read (some read)) :
    d.toList.flatMap (Deed.read side) = [] ∧ ∀ mask, d ≠ some (reports side mask .appData) := by
  cases ht with
  | @answers losable f _ f' call r there exchange =>
    obtain ⟨-, hspends, -⟩ := exchange.spends
    rw [h.pledged_of_spent there] at hspends
    obtain ⟨bytes, hp, hbytes⟩ := Option.map_eq_some_iff.1 hspends.symm
    obtain ⟨hread, rfl⟩ := List.append_eq_nil_iff.1 hbytes
    refine ⟨by simpa [Deed.read] using hread, fun mask hd => ?_⟩
    cases hd
    cases exchange with
    | event heard ready =>
      obtain ⟨hev, -⟩ | ⟨-, hbuffer⟩ | ⟨hev, -⟩ := Endpoint.of_available ready
      · cases hev
      · exact hbuffer (Endpoint.buffer_of_pledged hp)
      · cases hev
  | moves heeds => exact ⟨(heeds.elsewhere side).1, fun mask => heeds.ne_stack _ _⟩
  | drops =>
    refine ⟨rfl, fun mask hd => ?_⟩
    cases hd
  | keeps elsewhere => exact ⟨elsewhere.read, fun mask => elsewhere.still _ _⟩

/-! ### Any uses -/

/-- **What holds after any uses**, at an end: the books are kept, what was read was written before a
close, and once a close has been reported that is all. -/
structure Kept (side : Side) (h : Usage) : Prop where
  books : Books (h.link.ends.get side) (h.written side) (h.read side) (h.closing side)
  covered : h.read side <+: (h.closing side).getD (h.written side)
  closed : ∀ {earlier later : List Deed} {mask : Interest},
    h.deeds = earlier ++ reports side mask .appCloseRequested :: later →
    writtenUptoClose side earlier = some (earlier.flatMap (Deed.read side)) ∧
    h.closing side = some (h.read side) ∧ later.flatMap (Deed.read side) = [] ∧
    ∀ mask', reports side mask' .appData ∉ later

theorem Usage.read_next (h : Usage) (u : Use) :
    (h.next u).read side = h.read side ++ (h.link.use u).2.toList.flatMap (Deed.read side) :=
  List.flatMap_append

theorem Usage.closing_next (h : Usage) (u : Use) :
    (h.next u).closing side = (h.closing side).or
      ((writtenUptoClose side (h.link.use u).2.toList).map (h.written side ++ ·)) :=
  writtenUptoClose_append _ _

theorem Usage.written_next (h : Usage) (u : Use) :
    (h.next u).written side =
      h.written side ++ (h.link.use u).2.toList.flatMap (Deed.written side) :=
  List.flatMap_append

/-- Once all that was written before a close has been read, that stays so. -/
theorem Kept.stays (hk : Kept side h) (hspent : h.closing side = some (h.read side)) (u : Use) :
    (h.next u).closing side = some ((h.next u).read side) ∧
    (h.link.use u).2.toList.flatMap (Deed.read side) = [] ∧
    ∀ mask, (h.link.use u).2 ≠ some (reports side mask .appData) := by
  have hbooks : Books (h.link.ends.get side) (h.written side) (h.read side)
      (some (h.read side)) := hspent ▸ hk.books
  obtain ⟨hread, hdata⟩ := (treats_use h.link side u).spent hbooks
  refine ⟨?_, hread, hdata⟩
  rw [h.closing_next, h.read_next, hspent, hread, List.append_nil]
  rfl

/-- **A use leaves what a reported close says**, and reports one only when all has been read. -/
theorem Kept.closed_next (hk : Kept side h) (u : Use) {earlier later : List Deed}
    (heq : (h.next u).deeds = earlier ++ reports side mask .appCloseRequested :: later) :
    writtenUptoClose side earlier = some (earlier.flatMap (Deed.read side)) ∧
    (h.next u).closing side = some ((h.next u).read side) ∧
    later.flatMap (Deed.read side) = [] ∧ ∀ mask', reports side mask' .appData ∉ later := by
  have heq : h.deeds ++ (h.link.use u).2.toList =
      earlier ++ reports side mask .appCloseRequested :: later := heq
  cases hd : (h.link.use u).2 with
  | none =>
    -- nothing is done
    rw [hd, Option.toList_none, List.append_nil] at heq
    obtain ⟨hall, hspent, hread, hdata⟩ := hk.closed heq
    exact ⟨hall, (hk.stays hspent u).1, hread, hdata⟩
  | some x =>
    rw [hd, Option.toList_some] at heq
    obtain rfl | ⟨init, y, rfl⟩ := later.eq_nil_or_concat
    · -- the close is reported now
      obtain ⟨rfl, hx⟩ := List.append_inj' heq rfl
      obtain rfl := List.singleton_inj.1 hx
      have hspent : h.closing side = some (h.read side) :=
        (treats_use h.link side u).closing_of_report hk.books hd
      exact ⟨hspent, (hk.stays hspent u).1, rfl, fun _ => List.not_mem_nil⟩
    · -- it was reported before
      rw [List.concat_eq_append] at heq ⊢
      rw [← List.cons_append, ← List.append_assoc] at heq
      obtain ⟨hdeeds, hx⟩ := List.append_inj' heq rfl
      obtain rfl := List.singleton_inj.1 hx
      obtain ⟨hall, hspent, hread, hdata⟩ := hk.closed hdeeds
      obtain ⟨hspent', hread', hdata'⟩ := hk.stays hspent u
      rw [hd] at hread' hdata'
      refine ⟨hall, hspent', ?_, ?_⟩
      · rw [List.flatMap_append, hread]
        exact hread'
      · intro mask' hmem
        rw [List.mem_append, List.mem_singleton] at hmem
        obtain hmem | rfl := hmem
        · exact hdata mask' hmem
        · exact hdata' mask' rfl

/-- **A use keeps it all.** -/
theorem Kept.next (hk : Kept side h) (u : Use) : Kept side (h.next u) := by
  have ht := treats_use h.link side u
  refine ⟨?_, ?_, hk.closed_next u⟩
  · rw [h.written_next, h.read_next, h.closing_next]
    exact hk.books.treats ht
  · rw [h.written_next, h.read_next, h.closing_next]
    exact ht.covered hk.books hk.covered

/-- **Any uses keep it all.** -/
theorem Kept.after (hk : Kept side h) (us : List Use) : Kept side (h.after us) := by
  induction us generalizing h with
  | nil => exact hk
  | cons u us ih => exact ih (hk.next u)

/-- A new link has nothing to keep. -/
theorem kept_new (network : Network) (idleNear idleFar : Option Nat) (side : Side) :
    Kept side ⟨.new network idleNear idleFar, []⟩ where
  books := by
    cases side <;> exact ⟨List.prefix_refl _, fun _ => rfl, fun _ => rfl⟩
  covered := List.prefix_refl _
  closed := by
    intro earlier later mask heq
    cases earlier <;> cases heq

/-- **A stack neither loses nor invents bytes of its application.** A link has been used in any way,
on any network: its stacks and its applications have made any calls in any order, and waits have
been given up at any point.

What the stack at an end has read from its application is, in order, the beginning of what the
application wrote before it first closed or let go of its handle, or of all that it wrote if it has
not; and as long as there is a stack, what it has not read is all still with it. A wait reports the
close only when what was written before it has been read, and after that nothing more is read, and
no wait reports bytes. -/
theorem app_bytes_kept (network : Network) (idleNear idleFar : Option Nat) (side : Side)
    (uses : List Use) :
    let h := Usage.after ⟨.new network idleNear idleFar, []⟩ uses
    h.read side <+: (h.closing side).getD (h.written side) ∧
    ((h.link.ends.get side).stackGone = false →
      h.written side = h.read side ++ (h.link.ends.get side).unread) ∧
    ∀ earlier later mask, h.deeds = earlier ++ reports side mask .appCloseRequested :: later →
      writtenUptoClose side earlier = some (earlier.flatMap (Deed.read side)) ∧
      later.flatMap (Deed.read side) = [] ∧ ∀ mask', reports side mask' .appData ∉ later := by
  intro h
  have hk := (kept_new network idleNear idleFar side).after uses
  refine ⟨hk.covered, hk.books.total, fun earlier later mask heq => ?_⟩
  obtain ⟨hall, -, hread, hdata⟩ := hk.closed heq
  exact ⟨hall, hread, hdata⟩

/-- Bytes are written around a close, and read in pieces, between waits that are given up or ask for
something else. -/
def piecemeal : List Use :=
  [.app .near (.write [1, 2, 3]), .stack .near none (.wait .networkOnly), .app .near (.write []),
    .glance .near .any, .stack .near none (.wait .any), .stack .near none (.appRecv 2),
    .app .near .close, .app .near (.write [4]), .stack .near none (.wait ⟨false, false, true⟩),
    .stack .near none (.appRecv 5), .stack .near none (.wait .any), .stack .near none (.appRecv 5)]

/-- Three bytes have been read when the close is reported, and the fourth never is. -/
theorem app_bytes_kept_piecemeal : ∃ earlier later,
    (Usage.after ⟨.new .reliable none none, []⟩ piecemeal).deeds =
      earlier ++ reports .near .any .appCloseRequested :: later ∧
    writtenUptoClose .near earlier = some [1, 2, 3] ∧ later.flatMap (Deed.read .near) = [] := by
  have hdeeds : (Usage.after ⟨.new .reliable none none, []⟩ piecemeal).deeds =
      [.app .near (.write [1, 2, 3]) .done, .app .near (.write []) .done,
        .stack .near (.wait .any) (.event .appData), .stack .near (.appRecv 2) (.bytes [1, 2]),
        .app .near .close .done, .app .near (.write [4]) .done,
        .stack .near (.wait ⟨false, false, true⟩) (.failed .disconnected),
        .stack .near (.appRecv 5) (.bytes [3])] ++
      reports .near .any .appCloseRequested :: [.stack .near (.appRecv 5) (.bytes [])] := by
    decide +kernel
  obtain ⟨-, -, hreported⟩ := app_bytes_kept .reliable none none .near piecemeal
  obtain ⟨hall, hread, -⟩ := hreported _ _ _ hdeeds
  exact ⟨_, _, hdeeds, hall, hread⟩

end StopWait.Link
