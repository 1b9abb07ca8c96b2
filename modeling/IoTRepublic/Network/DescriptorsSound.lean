import IoTRepublic.Network.ServerLoopSound

/-!
# IoTRepublic.Network.DescriptorsSound

What becomes of the descriptors `accept` returns.

A descriptor should be in a slot until it is closed. `leaked_step_iff` says which
event breaks that: a connection accepted while every slot is taken, which stays open
and out of reach from then on. `noneLeaked_iff` carries it to the rounds of
`server_loop`.

The accounts are kept against the state at the start: what was open then stays open and
out of the slots (`Owned`), and what has been opened since is in a slot or leaked. The
subclass and the socket set play no part. Since the event that leaks is known exactly, so
are the runs without one, in both directions.
-/

namespace IoTRepublic

open Cpp Transition

variable {σ : Type} {events : ServerEvents σ}

/-- The descriptors `accept` has returned since `s₀` that are not closed: only `accept`
opens any. -/
def ServerState.held (s₀ s : ServerState σ) : Finset Int := s.opened \ s₀.opened

/-- They are the non-zero entries of `clientSockets`. -/
def NoneLeaked (s₀ s : ServerState σ) : Prop :=
  ∀ fd, fd ∈ ServerState.held s₀ s ↔ ∃ i, s.server.Connected i fd

/-- A connection that arrives in this round finds a free slot. -/
def RoomLeft (poll : Poll) (s : ServerState σ) : Prop :=
  s.server.listener ∈ poll.readfds → ∃ i : Nat, s.server.clientSockets[i]? = some 0

namespace ServerEvent

/-- An accepted connection finds a free slot. -/
def RoomLeft (s : ServerState σ) : ServerEvent → Prop
  | accepted _ => ∃ i : Nat, s.server.clientSockets[i]? = some 0
  | received _ _ => True
  | disconnected _ => True

/-- No connection is accepted, so no descriptor can be opened by the event. -/
def Quiet : ServerEvent → Prop
  | accepted _ => False
  | received _ _ => True
  | disconnected _ => True

theorem Quiet.roomLeft {e : ServerEvent} (h : e.Quiet) (s : ServerState σ) : e.RoomLeft s := by
  cases e with
  | accepted newSocket => exact h.elim
  | received socketIndex buffer => exact trivial
  | disconnected socketIndex => exact trivial

end ServerEvent

/-! ### One event -/

/-- What was open at the start stays open and in no slot. -/
structure Owned (s₀ s : ServerState σ) : Prop where
  kept : s₀.opened ⊆ s.opened
  own : ∀ i fd, s.server.Connected i fd → fd ∉ s₀.opened

/-- The descriptor is open and in no slot. -/
def Leaked (s₀ s : ServerState σ) (fd : Int) : Prop :=
  fd ∈ ServerState.held s₀ s ∧ ∀ i, ¬ s.server.Connected i fd

theorem mem_held_iff {s₀ s : ServerState σ} {fd : Int} :
    fd ∈ ServerState.held s₀ s ↔ fd ∈ s.opened ∧ fd ∉ s₀.opened := Finset.mem_sdiff

section Events

variable {s₀ s s' : ServerState σ} {e : ServerEvent}

theorem noneLeaked_iff_forall (ht : SocketTable s.server s.opened) (ho : Owned s₀ s) :
    NoneLeaked s₀ s ↔ ∀ fd, ¬ Leaked s₀ s fd := by
  constructor
  · intro h fd hleaked
    obtain ⟨i, hi⟩ := (h fd).mp hleaked.1
    exact hleaked.2 i hi
  · intro h fd
    constructor
    · intro hheld
      by_contra hnone
      exact h fd ⟨hheld, fun i hi => hnone ⟨i, hi⟩⟩
    · intro hconn
      obtain ⟨i, hi⟩ := hconn
      exact mem_held_iff.mpr ⟨ht.connected_open i fd hi, ho.own i fd hi⟩

theorem owned_step (ht : SocketTable s.server s.opened) (ho : Owned s₀ s)
    (hs : e.Step events s s') : Owned s₀ s' := by
  obtain ⟨hposs, hstep⟩ := hs
  cases e with
  | accepted newSocket =>
      have hfresh : newSocket ∉ s₀.opened := fun hmem => hposs (ho.kept hmem)
      have hkept : s₀.opened ⊆ insert newSocket s.opened :=
        ho.kept.trans (Finset.subset_insert _ _)
      rcases acceptConnection_cases hstep with ⟨-, rfl⟩ | ⟨i, sub, hi, -, rfl⟩
      · exact ⟨hkept, ho.own⟩
      · have hne : newSocket ≠ 0 := by
          rintro rfl
          exact hposs ht.zero_open
        refine ⟨hkept, fun j fd hj => ?_⟩
        rcases (connected_fillSlot_iff (getElem?_of_nextSlot hi) hne j fd).mp hj with ⟨-, rfl⟩ | hj
        · exact hfresh
        · exact ho.own j fd hj
  | received socketIndex buffer =>
      obtain ⟨sub, -, rfl⟩ := receiveData_cases hstep
      exact ⟨ho.kept, ho.own⟩
  | disconnected socketIndex =>
      obtain ⟨fd, sub, hfd, -, rfl⟩ := cutConnection_cases hstep
      obtain ⟨fd', hfd'⟩ := hposs
      obtain rfl := Option.some.inj (hfd.symm.trans hfd'.1)
      refine ⟨fun x hx => ?_, fun j x hj => ho.own j x ((connected_freeSlot_iff j x).mp hj).2⟩
      refine Finset.mem_erase_of_ne_of_mem ?_ (ho.kept hx)
      rintro rfl
      exact ho.own _ _ hfd' hx

section Leaked

variable {x fd : Int} {i : Nat}

/-- A descriptor that is opened and goes into no slot. -/
theorem leaked_of_dropped (hfresh : x ∉ s₀.opened) (hfree : ∀ i, ¬ s.server.Connected i x)
    (hopened : s'.opened = insert x s.opened)
    (hconn : ∀ i fd, s'.server.Connected i fd ↔ s.server.Connected i fd) :
    Leaked s₀ s' fd ↔ Leaked s₀ s fd ∨ fd = x := by
  by_cases hfd : fd = x
  · subst hfd
    simp [Leaked, mem_held_iff, hopened, hconn, hfresh, hfree]
  · simp [Leaked, mem_held_iff, hopened, hconn, hfd]

/-- A descriptor that is opened and goes into a slot. -/
theorem leaked_of_stored (hclosed : x ∉ s.opened) (hopened : s'.opened = insert x s.opened)
    (hconn : ∀ j fd, s'.server.Connected j fd ↔ (j = i ∧ fd = x) ∨ s.server.Connected j fd) :
    Leaked s₀ s' fd ↔ Leaked s₀ s fd := by
  by_cases hfd : fd = x
  · subst hfd
    have hstored : s'.server.Connected i fd := (hconn i fd).mpr (.inl ⟨rfl, rfl⟩)
    exact iff_of_false (fun hleaked => hleaked.2 i hstored)
      fun hleaked => hclosed (mem_held_iff.mp hleaked.1).1
  · simp [Leaked, mem_held_iff, hopened, hconn, hfd]

/-- A descriptor that is closed and taken out of its slot. -/
theorem leaked_of_closed (hslot : s.server.Connected i x) (hopened : s'.opened = s.opened.erase x)
    (hconn : ∀ j fd, s'.server.Connected j fd ↔ j ≠ i ∧ s.server.Connected j fd) :
    Leaked s₀ s' fd ↔ Leaked s₀ s fd := by
  simp only [Leaked, mem_held_iff, hopened, Finset.mem_erase, hconn]
  constructor
  · intro h
    obtain ⟨⟨⟨hne, hopen⟩, hnew⟩, hfree⟩ := h
    refine ⟨⟨hopen, hnew⟩, fun j hj => ?_⟩
    by_cases hji : j = i
    · subst hji
      exact hne (Option.some.inj (hj.1.symm.trans hslot.1))
    · exact hfree j ⟨hji, hj⟩
  · intro h
    obtain ⟨⟨hopen, hnew⟩, hfree⟩ := h
    refine ⟨⟨⟨fun heq => ?_, hopen⟩, hnew⟩, fun j hj => hfree j hj.2⟩
    exact hfree i (heq ▸ hslot)

/-- **What an event does to the leaked descriptors**: one is added where a connection
is accepted without a free slot, and none ever goes away. -/
theorem leaked_step_iff (ht : SocketTable s.server s.opened) (ho : Owned s₀ s)
    (hs : e.Step events s s') (fd : Int) :
    Leaked s₀ s' fd ↔ Leaked s₀ s fd ∨ (e = .accepted fd ∧ ¬ e.RoomLeft s) := by
  obtain ⟨hposs, hstep⟩ := hs
  cases e with
  | accepted newSocket =>
      rw [ServerEvent.accepted.injEq]
      rcases acceptConnection_cases hstep with ⟨hfull, rfl⟩ | ⟨i, sub, hi, -, rfl⟩
      · have hroom : ¬ (ServerEvent.accepted newSocket).RoomLeft s :=
          fun hroom => hroom.elim hfull
        have hfresh : newSocket ∉ s₀.opened := fun hmem => hposs (ho.kept hmem)
        have hfree : ∀ i, ¬ s.server.Connected i newSocket :=
          fun i hi => hposs (ht.connected_open i newSocket hi)
        refine (leaked_of_dropped hfresh hfree (by rfl) (by simp)).trans ?_
        simp [hroom, eq_comm]
      · have hslot := getElem?_of_nextSlot hi
        have hroom : (ServerEvent.accepted newSocket).RoomLeft s := ⟨i, hslot⟩
        have hne : newSocket ≠ 0 := by
          rintro rfl
          exact hposs ht.zero_open
        refine (leaked_of_stored hposs (by rfl) (connected_fillSlot_iff hslot hne)).trans ?_
        simp [hroom]
  | received socketIndex buffer =>
      obtain ⟨sub, -, rfl⟩ := receiveData_cases hstep
      simp [Leaked, mem_held_iff]
  | disconnected socketIndex =>
      obtain ⟨x, sub, hx, -, rfl⟩ := cutConnection_cases hstep
      obtain ⟨x', hx'⟩ := hposs
      obtain rfl := Option.some.inj (hx.symm.trans hx'.1)
      refine (leaked_of_closed hx' (by rfl) connected_freeSlot_iff).trans ?_
      simp

end Leaked

/-- Where nothing is leaked, an event keeps it so exactly when there is room. -/
theorem noneLeaked_step_iff (ht : SocketTable s.server s.opened) (ho : Owned s₀ s)
    (hnone : NoneLeaked s₀ s) (hs : e.Step events s s') : NoneLeaked s₀ s' ↔ e.RoomLeft s := by
  rw [noneLeaked_iff_forall ht ho] at hnone
  rw [noneLeaked_iff_forall (socketTable_step ht hs) (owned_step ht ho hs)]
  simp only [leaked_step_iff ht ho hs, hnone, false_or, not_and, not_not]
  constructor
  · intro h
    cases e with
    | accepted newSocket => exact h newSocket rfl
    | received socketIndex buffer => exact trivial
    | disconnected socketIndex => exact trivial
  · intro hroom fd _
    exact hroom

end Events

/-! ### Runs of events -/

/-- The table, and what belongs to the process since the start. -/
def Accounted (s₀ s : ServerState σ) : Prop := SocketTable s.server s.opened ∧ Owned s₀ s

theorem accounted_step {s₀ s s' : ServerState σ} {e : ServerEvent} (h : Accounted s₀ s)
    (hs : e.Step events s s') : Accounted s₀ s' :=
  ⟨socketTable_step h.1 hs, owned_step h.1 h.2 hs⟩

theorem accounted_run {s₀ s s' : ServerState σ} {es : List ServerEvent} (h : Accounted s₀ s)
    (hrun : Run (fun s e s' => ServerEvent.Step events s e s') s es s') : Accounted s₀ s' :=
  hrun.invariant (I := Accounted s₀) h fun _ _ _ ht hs => accounted_step ht hs

/-- The states a run of events comes to are accounted for as long as there is room. -/
theorem noneLeaked_events_iff {s₀ s s' : ServerState σ} {es : List ServerEvent}
    (h : Accounted s₀ s) (hnone : NoneLeaked s₀ s) :
    Run (fun s e s' => ServerEvent.Step events s e s' ∧ NoneLeaked s₀ s') s es s' ↔
      Run (fun s e s' => ServerEvent.Step events s e s' ∧ e.RoomLeft s) s es s' := by
  refine Run.iff_of_invariant (I := fun s => Accounted s₀ s ∧ NoneLeaked s₀ s) ⟨h, hnone⟩ ?_ ?_
  · rintro s e s' ⟨ha, hnone⟩ ⟨hstep, hnone'⟩
    have hroom := (noneLeaked_step_iff ha.1 ha.2 hnone hstep).mp hnone'
    exact ⟨⟨hstep, hroom⟩, accounted_step ha hstep, hnone'⟩
  · rintro s e s' ⟨ha, hnone⟩ ⟨hstep, hroom⟩
    have hnone' := (noneLeaked_step_iff ha.1 ha.2 hnone hstep).mpr hroom
    exact ⟨⟨hstep, hnone'⟩, accounted_step ha hstep, hnone'⟩

/-- Events that accept nothing leak nothing and close nothing leaked. -/
theorem leaked_quiet_iff {s₀ s s' : ServerState σ} {es : List ServerEvent} (h : Accounted s₀ s)
    (hrun : Run (fun s e s' => e.Quiet ∧ ServerEvent.Step events s e s') s es s') (fd : Int) :
    Leaked s₀ s' fd ↔ Leaked s₀ s fd := by
  refine (hrun.invariant (I := fun t => Accounted s₀ t ∧ (Leaked s₀ t fd ↔ Leaked s₀ s fd))
    ⟨h, Iff.rfl⟩ ?_).2
  rintro t e t' ⟨ha, hiff⟩ ⟨hquiet, hstep⟩
  refine ⟨accounted_step ha hstep, (leaked_step_iff ha.1 ha.2 hstep fd).trans ?_⟩
  rw [hiff]
  exact or_iff_left fun hleak => hleak.2 (hquiet.roomLeft t)

/-! ### Rounds -/

section Rounds

variable {poll : Poll} {s₀ s s' : ServerState σ}

/-- The body of the loop over the slots, as an event. -/
theorem pollSlot_event {i : Nat} (h0 : (0 : Int) ∉ poll.readfds)
    (h : s.pollSlot events poll i = .ok s') :
    s' = s ∨ ∃ e : ServerEvent, e.Quiet ∧ e.Step events s s' := by
  obtain ⟨fd, hfd, hcases⟩ := pollSlot_cases h
  have hconn : fd ∈ poll.readfds → s.server.Connected i fd := by
    refine fun hready => ⟨hfd, ?_⟩
    rintro rfl
    exact h0 hready
  rcases hcases with ⟨-, rfl⟩ | ⟨hready, -, hcut⟩ | ⟨hready, hsome, hrecv⟩
  · exact .inl rfl
  · exact .inr ⟨.disconnected i, trivial, ⟨fd, hconn hready⟩, hcut⟩
  · exact .inr ⟨.received i (poll.received i), trivial, ⟨hsome, fd, hconn hready⟩, hrecv⟩

/-- The loop over the slots accepts nothing. -/
theorem slots_events {slots : List Nat} (h0 : (0 : Int) ∉ poll.readfds)
    (h : slots.foldlM (fun s i => s.pollSlot events poll i) s = .ok s') :
    ∃ es, Run (fun s e s' => e.Quiet ∧ ServerEvent.Step events s e s') s es s' := by
  refine (run_iff_foldlM.mpr h).invariant
    (I := fun t => ∃ es, Run (fun s e s' => e.Quiet ∧ ServerEvent.Step events s e s') s es t)
    ⟨[], .nil⟩ ?_
  rintro t i t' ⟨es, hrun⟩ hslot
  rcases pollSlot_event h0 hslot with rfl | ⟨e, hquiet, hstep⟩
  · exact ⟨es, hrun⟩
  · exact ⟨es ++ [e], .snoc hrun ⟨hquiet, hstep⟩⟩

/-- A round accepts at most one connection, and first. -/
theorem round_events (ht : SocketTable s.server s.opened) (h : Round events s poll s') :
    ∃ s₁ es, ((s.server.listener ∈ poll.readfds ∧
          ServerEvent.Step events s (.accepted poll.newSocket) s₁) ∨
        (s.server.listener ∉ poll.readfds ∧ s₁ = s)) ∧
      Run (fun s e s' => e.Quiet ∧ ServerEvent.Step events s e s') s₁ es s' := by
  obtain ⟨hposs, hloop⟩ := h
  have h0 : (0 : Int) ∉ poll.readfds := fun hm => ht.zero_notMem_master (hposs.readfds_subset hm)
  obtain ⟨s₁, haccept, hslots⟩ := serverLoop_cases hloop
  obtain ⟨es, hrun⟩ := slots_events h0 hslots
  refine ⟨s₁, es, ?_, hrun⟩
  rcases haccept with ⟨hl, -, haccept⟩ | hskip
  · exact .inl ⟨hl, hposs.newSocket_fresh hl, haccept⟩
  · exact .inr hskip

/-- With room for its connection, a round is a run of events with room. -/
theorem round_events_of_roomLeft (ht : SocketTable s.server s.opened) (h : Round events s poll s')
    (hroom : RoomLeft poll s) :
    ∃ es, Run (fun s e s' => ServerEvent.Step events s e s' ∧ e.RoomLeft s) s es s' := by
  obtain ⟨s₁, es, haccept, hrun⟩ := round_events ht h
  have hrest : Run (fun s e s' => ServerEvent.Step events s e s' ∧ e.RoomLeft s) s₁ es s' :=
    hrun.mono fun t e _ hquiet => ⟨hquiet.2, hquiet.1.roomLeft t⟩
  rcases haccept with ⟨hl, hstep⟩ | ⟨-, rfl⟩
  · exact ⟨_, (Run.snoc .nil ⟨hstep, hroom hl⟩).trans hrest⟩
  · exact ⟨es, hrest⟩

theorem accounted_round (h : Accounted s₀ s) (hround : Round events s poll s') :
    Accounted s₀ s' := by
  obtain ⟨es, hrun⟩ := (round_spec h.1 hround).run
  exact accounted_run h hrun

/-- Without room, the connection of the round is leaked. -/
theorem leaked_of_round (h : Accounted s₀ s) (hround : Round events s poll s')
    (hroom : ¬ RoomLeft poll s) : Leaked s₀ s' poll.newSocket := by
  rw [RoomLeft, Classical.not_imp] at hroom
  obtain ⟨s₁, es, haccept, hrun⟩ := round_events h.1 hround
  rcases haccept with ⟨-, hstep⟩ | ⟨hl, -⟩
  · rw [leaked_quiet_iff (accounted_step h hstep) hrun, leaked_step_iff h.1 h.2 hstep]
    exact .inr ⟨rfl, hroom.2⟩
  · exact absurd hroom.1 hl

/-- Where nothing is leaked, a round keeps it so exactly when it has room. -/
theorem noneLeaked_round_iff (h : Accounted s₀ s) (hnone : NoneLeaked s₀ s)
    (hround : Round events s poll s') : NoneLeaked s₀ s' ↔ RoomLeft poll s := by
  constructor
  · intro hnone'
    by_contra hroom
    have ha := accounted_round h hround
    exact (noneLeaked_iff_forall ha.1 ha.2).mp hnone' _ (leaked_of_round h hround hroom)
  · intro hroom
    obtain ⟨es, hrun⟩ := round_events_of_roomLeft h.1 hround hroom
    refine ((noneLeaked_events_iff h hnone).mpr hrun).invariant (I := NoneLeaked s₀) hnone ?_
    intro t e t' _ hstep
    exact hstep.2

end Rounds

theorem accounted_start {listener : Int} {opened : Finset Int} (h : Startable listener opened)
    (fdSet : FdSet) (maxClient : Nat) (sub : σ) :
    Accounted (ServerState.start fdSet listener maxClient opened sub)
      (ServerState.start fdSet listener maxClient opened sub) :=
  ⟨socketTable_start h fdSet maxClient sub, Finset.Subset.refl _,
    fun _ _ hi => absurd hi (not_connected_replicate rfl)⟩

theorem noneLeaked_start (fdSet : FdSet) (listener : Int) (opened : Finset Int) (maxClient : Nat)
    (sub : σ) :
    NoneLeaked (ServerState.start fdSet listener maxClient opened sub)
      (ServerState.start fdSet listener maxClient opened sub) := by
  intro fd
  rw [mem_held_iff]
  refine iff_of_false (fun hheld => hheld.2 hheld.1) ?_
  rintro ⟨i, hi⟩
  exact not_connected_replicate rfl hi

/-- **When no accepted connection is leaked.** Along any rounds of the loop, every
state between two rounds is without leak if and only if every connection that
arrives finds a free slot; then so is every state within a round. -/
theorem noneLeaked_iff {listener : Int} {opened : Finset Int} (h : Startable listener opened)
    (fdSet : FdSet) (maxClient : Nat) (sub : σ) (polls : List Poll) (s : ServerState σ) :
    NoneLeaked (ServerState.start fdSet listener maxClient opened sub)
        (ServerState.start fdSet listener maxClient opened sub) ∧
      (Run (fun s poll s' => Round events s poll s' ∧
            NoneLeaked (ServerState.start fdSet listener maxClient opened sub) s')
          (ServerState.start fdSet listener maxClient opened sub) polls s ↔
        Run (fun s poll s' => Round events s poll s' ∧ RoomLeft poll s)
          (ServerState.start fdSet listener maxClient opened sub) polls s) ∧
      (Run (fun s poll s' => Round events s poll s' ∧ RoomLeft poll s)
          (ServerState.start fdSet listener maxClient opened sub) polls s →
        ∃ es, Run (fun s e s' => ServerEvent.Step events s e s' ∧
            NoneLeaked (ServerState.start fdSet listener maxClient opened sub) s')
          (ServerState.start fdSet listener maxClient opened sub) es s) := by
  generalize hs₀ : ServerState.start fdSet listener maxClient opened sub = s₀
  have ha₀ : Accounted s₀ s₀ := hs₀ ▸ accounted_start h fdSet maxClient sub
  have hnone₀ : NoneLeaked s₀ s₀ := hs₀ ▸ noneLeaked_start fdSet listener opened maxClient sub
  refine ⟨hnone₀, ?_, fun hrun => ?_⟩
  · refine Run.iff_of_invariant (I := fun s => Accounted s₀ s ∧ NoneLeaked s₀ s)
      ⟨ha₀, hnone₀⟩ ?_ ?_
    · rintro s poll s' ⟨ha, hnone⟩ ⟨hround, hnone'⟩
      exact ⟨⟨hround, (noneLeaked_round_iff ha hnone hround).mp hnone'⟩,
        accounted_round ha hround, hnone'⟩
    · rintro s poll s' ⟨ha, hnone⟩ ⟨hround, hroom⟩
      have hnone' := (noneLeaked_round_iff ha hnone hround).mpr hroom
      exact ⟨⟨hround, hnone'⟩, accounted_round ha hround, hnone'⟩
  · have hevents : ∃ es,
        Run (fun s e s' => ServerEvent.Step events s e s' ∧ e.RoomLeft s) s₀ es s := by
      refine (hrun.invariant (I := fun t => Accounted s₀ t ∧ ∃ es,
        Run (fun s e s' => ServerEvent.Step events s e s' ∧ e.RoomLeft s) s₀ es t)
        ⟨ha₀, [], .nil⟩ ?_).2
      rintro t poll t' ⟨ha, es, hes⟩ ⟨hround, hroom⟩
      obtain ⟨es', hes'⟩ := round_events_of_roomLeft ha.1 hround hroom
      exact ⟨accounted_round ha hround, es ++ es', hes.trans hes'⟩
    obtain ⟨es, hes⟩ := hevents
    exact ⟨es, (noneLeaked_events_iff ha₀ hnone₀).mpr hes⟩

theorem noneLeaked_iff_first : ∃ s,
    Run (fun s poll s' => Round TcpServer.events s poll s' ∧ NoneLeaked smallServer s') smallServer
      [acceptPoll 4] s :=
  ⟨_, ((noneLeaked_iff startable_smallServer (.bits 1024) 2 () [acceptPoll 4] _).2.1).mpr
    (.snoc .nil ⟨round_first, fun _ => ⟨0, rfl⟩⟩)⟩

/-- A server with one slot gets a second client: its descriptor is in no slot and is
never closed. -/
theorem leaked_when_full : ∃ s,
    Run (Round TcpServer.events) (.start (.bits 1024) 3 1 {0, 1, 2} ())
      [acceptPoll 4, acceptPoll 5] s ∧
    Leaked (.start (.bits 1024) 3 1 {0, 1, 2} ()) s 5 ∧
    ¬ NoneLeaked (.start (.bits 1024) 3 1 {0, 1, 2} ()) s := by
  have h1 : Round TcpServer.events (.start (.bits 1024) 3 1 {0, 1, 2} ()) (acceptPoll 4)
      (smallState [4] {4, 3} {4, 3, 0, 1, 2} 4) := ⟨⟨by decide, by decide⟩, by decide⟩
  have h2 : Round TcpServer.events (smallState [4] {4, 3} {4, 3, 0, 1, 2} 4) (acceptPoll 5)
      (smallState [4] {4, 3} {5, 4, 3, 0, 1, 2} 4) := ⟨⟨by decide, by decide⟩, by decide⟩
  have hfive : ∀ i, ¬ (smallState [4] {4, 3} {5, 4, 3, 0, 1, 2} 4).server.Connected i 5 := by
    rintro i ⟨hi, -⟩
    have hmem : (5 : Int) ∈ [(4 : Int)] := List.mem_of_getElem? hi
    exact absurd hmem (by decide)
  have hleaked : Leaked (.start (.bits 1024) 3 1 {0, 1, 2} ())
      (smallState [4] {4, 3} {5, 4, 3, 0, 1, 2} 4) 5 := ⟨by decide, hfive⟩
  refine ⟨_, .snoc (.snoc .nil h1) h2, hleaked, fun hnone => ?_⟩
  obtain ⟨i, hi⟩ := (hnone 5).mp hleaked.1
  exact hfive i hi

end IoTRepublic
