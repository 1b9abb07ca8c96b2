import IoTRepublic.Network.TcpServerSound

/-!
# IoTRepublic.Network.ServerLoopSound

Rounds of `server_loop`.

`round_spec` says once what a round does to the descriptors in use and to `fdmax`;
it also exhibits the round as a run of server events. `watched_iff` uses it to settle
when the first argument of `select` covers every descriptor: exactly as long as no
connection is stored with a descriptor below one that stays in use.

A round accepts at most one connection and then walks over the slots, so its proof is a
walk as well: `SlotsPolled` says what holds after the first `k` slots, and its step lemma
is one call of `pollSlot`. What comes out at the end (`RoundDone`) no longer speaks of
slots one by one. The kernel is taken at its word only where a poll would otherwise be
impossible (`Poll.Possible`): it returns no descriptor that is open, and reports none it
was not asked for.
-/

namespace IoTRepublic

open Cpp Transition

variable {σ : Type} {events : ServerEvents σ}

/-- What the kernel guarantees about the results of a round. -/
structure Poll.Possible (poll : Poll) (s : ServerState σ) : Prop where
  readfds_subset : poll.readfds ⊆ s.server.master
  newSocket_fresh : s.server.listener ∈ poll.readfds → poll.newSocket ∉ s.opened

/-- One round that does not end the loop. -/
def Round (events : ServerEvents σ) (s : ServerState σ) (poll : Poll) (s' : ServerState σ) : Prop :=
  poll.Possible s ∧ s.serverLoop events poll = .ok (some s')

/-- The connection in slot `i` is found closed in this round. -/
def CutAt (poll : Poll) (server : TcpServer) (i : Nat) (fd : Int) : Prop :=
  server.clientSockets[i]? = some fd ∧ fd ∈ poll.readfds ∧ poll.received i = []

/-! ### The loop over the slots -/

/-- The state `s` after the first `k` slots of `s₁` are polled. -/
structure SlotsPolled (events : ServerEvents σ) (poll : Poll) (s₁ : ServerState σ) (k : Nat)
    (s : ServerState σ) : Prop where
  run : ∃ es, Run (fun s e s' => ServerEvent.Step events s e s') s₁ es s
  fdmax : s.fdmax = s₁.fdmax
  listener : s.server.listener = s₁.server.listener
  untouched : ∀ i : Nat, k ≤ i → s.server.clientSockets[i]? = s₁.server.clientSockets[i]?
  table : SocketTable s.server s.opened
  uses_iff : ∀ fd, s.server.Uses fd ↔
    s₁.server.Uses fd ∧ ¬ ∃ i < k, CutAt poll s₁.server i fd

theorem slotsPolled_zero (poll : Poll) {s₁ : ServerState σ}
    (ht : SocketTable s₁.server s₁.opened) : SlotsPolled events poll s₁ 0 s₁ where
  run := ⟨[], .nil⟩
  fdmax := rfl
  listener := rfl
  untouched := fun _ _ => rfl
  table := ht
  uses_iff := by simp

/-- Slot `k` adds its own cut to those of the slots before it. -/
theorem exists_cutAt_succ_iff {poll : Poll} {server : TcpServer} {k : Nat} {fd : Int}
    (hfd : server.clientSockets[k]? = some fd) (x : Int) :
    (∃ i < k + 1, CutAt poll server i x) ↔
      (∃ i < k, CutAt poll server i x) ∨ (x = fd ∧ fd ∈ poll.readfds ∧ poll.received k = []) := by
  constructor
  · intro h
    obtain ⟨i, hi, hcut⟩ := h
    rcases Nat.lt_succ_iff_lt_or_eq.mp hi with hlt | rfl
    · exact .inl ⟨i, hlt, hcut⟩
    · obtain rfl := Option.some.inj (hcut.1.symm.trans hfd)
      exact .inr ⟨rfl, hcut.2⟩
  · intro h
    rcases h with ⟨i, hi, hcut⟩ | ⟨rfl, hcut⟩
    · exact ⟨i, by omega, hcut⟩
    · exact ⟨k, by omega, hfd, hcut⟩

/-- The body of the loop, at slot `k`: one more slot is polled, and the descriptors cut so
far may grow by its own. -/
theorem slotsPolled_succ {poll : Poll} {s₁ s s' : ServerState σ} {k : Nat}
    (h0 : (0 : Int) ∉ poll.readfds) (h : SlotsPolled events poll s₁ k s)
    (hslot : s.pollSlot events poll k = .ok s') : SlotsPolled events poll s₁ (k + 1) s' := by
  obtain ⟨fd, hfd, hcases⟩ := pollSlot_cases hslot
  have hfd₁ : s₁.server.clientSockets[k]? = some fd := by
    rw [← h.untouched k (Nat.le_refl k)]
    exact hfd
  have hconn : fd ∈ poll.readfds → s.server.Connected k fd := by
    refine fun hready => ⟨hfd, ?_⟩
    rintro rfl
    exact h0 hready
  obtain ⟨es, hrun⟩ := h.run
  rcases hcases with ⟨hskip, rfl⟩ | ⟨hready, hnone, hcut⟩ | ⟨hready, hsome, hrecv⟩
  · refine { h with untouched := fun i hi => h.untouched i (by omega), uses_iff := ?_ }
    intro x
    rw [h.uses_iff, exists_cutAt_succ_iff hfd₁]
    simp [hskip]
  · have hstep : ServerEvent.Step events s (.disconnected k) s' := ⟨⟨fd, hconn hready⟩, hcut⟩
    obtain ⟨fd', sub, hfd', -, rfl⟩ := cutConnection_cases hcut
    obtain rfl := Option.some.inj (hfd'.symm.trans hfd)
    refine
      { run := ⟨es ++ [.disconnected k], .snoc hrun hstep⟩
        fdmax := h.fdmax
        listener := h.listener
        untouched := ?_
        table := socketTable_step h.table hstep
        uses_iff := ?_ }
    · intro i hi
      rw [← h.untouched i (by omega)]
      simp only [TcpServer.freeSlot]
      rw [List.getElem?_set_ne (by omega)]
    · intro x
      rw [exists_cutAt_succ_iff hfd₁, h.table.uses_freeSlot_iff (hconn hready), h.uses_iff]
      simp only [hready, hnone, and_true, not_or, and_assoc, ne_eq]
  · have hstep : ServerEvent.Step events s (.received k (poll.received k)) s' :=
      ⟨⟨hsome, fd, hconn hready⟩, hrecv⟩
    obtain ⟨sub, -, rfl⟩ := receiveData_cases hrecv
    refine
      { run := ⟨es ++ [.received k (poll.received k)], .snoc hrun hstep⟩
        fdmax := h.fdmax
        listener := h.listener
        untouched := fun i hi => h.untouched i (by omega)
        table := socketTable_step h.table hstep
        uses_iff := ?_ }
    intro x
    rw [exists_cutAt_succ_iff hfd₁]
    simp only [h.uses_iff, hsome, and_false, or_false]

theorem slotsPolled_range {poll : Poll} {s₁ : ServerState σ} (h0 : (0 : Int) ∉ poll.readfds)
    (ht : SocketTable s₁.server s₁.opened) :
    ∀ {k : Nat} {s : ServerState σ},
      (List.range k).foldlM (fun s i => s.pollSlot events poll i) s₁ = .ok s →
      SlotsPolled events poll s₁ k s := by
  intro k
  induction k with
  | zero =>
      intro s h
      obtain rfl := Except.ok.inj h
      exact slotsPolled_zero poll ht
  | succ k ih =>
      intro s h
      rw [List.range_succ, foldlM_concat] at h
      obtain ⟨t, hpolled, hslot⟩ := bind_ok_iff.mp h
      exact slotsPolled_succ h0 (ih hpolled) hslot

/-! ### A round -/

/-- A connection is stored in this round. -/
def Stores (poll : Poll) (s : ServerState σ) : Prop :=
  s.server.listener ∈ poll.readfds ∧ ∃ i : Nat, s.server.clientSockets[i]? = some 0

/-- What a round does: a run of events, `fdmax` only where the connection was stored, and
the descriptors in use are those before and the new one without the ones that were cut. -/
structure RoundDone (events : ServerEvents σ) (poll : Poll) (s s' : ServerState σ) : Prop where
  run : ∃ es, Run (fun s e s' => ServerEvent.Step events s e s') s es s'
  fdmax_stored : Stores poll s → s'.fdmax = poll.newSocket
  fdmax_kept : ¬ Stores poll s → s'.fdmax = s.fdmax
  table : SocketTable s'.server s'.opened
  uses_iff : ∀ fd, s'.server.Uses fd ↔
    (s.server.Uses fd ∨ (Stores poll s ∧ fd = poll.newSocket)) ∧
      ¬ ∃ i, CutAt poll s.server i fd

theorem lt_length_of_cutAt {poll : Poll} {server : TcpServer} {i : Nat} {fd : Int}
    (h : CutAt poll server i fd) : i < server.clientSockets.length :=
  (List.getElem?_eq_some_iff.mp h.1).choose

/-- Filling a slot does not change which connections are cut: neither a free slot
nor a descriptor handed out in this round is in `readfds`. -/
theorem cutAt_fillSlot_iff {poll : Poll} {server : TcpServer} {i : Nat} {fd : Int}
    (h0 : (0 : Int) ∉ poll.readfds) (hfd : fd ∉ poll.readfds)
    (hi : server.clientSockets[i]? = some 0) (j : Nat) (x : Int) :
    CutAt poll (server.fillSlot i fd) j x ↔ CutAt poll server j x := by
  obtain ⟨hlt, -⟩ := List.getElem?_eq_some_iff.mp hi
  simp only [CutAt, TcpServer.fillSlot, List.getElem?_set]
  by_cases hj : i = j
  · subst hj
    simp only [if_true, hlt, hi, Option.some.injEq]
    constructor
    · rintro ⟨rfl, hx, -⟩
      exact absurd hx hfd
    · rintro ⟨rfl, hx, -⟩
      exact absurd hx h0
  · rw [if_neg hj]

/-- The bound of the loop covers every slot. -/
theorem exists_cutAt_lt_iff {poll : Poll} {server : TcpServer} {x : Int} :
    (∃ i < server.clientSockets.length, CutAt poll server i x) ↔ ∃ i, CutAt poll server i x :=
  ⟨fun ⟨i, _, hi⟩ => ⟨i, hi⟩, fun ⟨i, hi⟩ => ⟨i, lt_length_of_cutAt hi, hi⟩⟩

/-- A round that stores no connection only polls the slots. -/
theorem roundDone_of_not_stores {poll : Poll} {s s' : ServerState σ} {opened : Finset Int}
    (hstores : ¬ Stores poll s)
    (hrun : ∃ es, Run (fun s e s' => ServerEvent.Step events s e s') s es s')
    (hpolled : SlotsPolled events poll { s with opened := opened }
      s.server.clientSockets.length s') : RoundDone events poll s s' where
  run := hrun
  fdmax_stored := fun hs => absurd hs hstores
  fdmax_kept := fun _ => hpolled.fdmax
  table := hpolled.table
  uses_iff := by
    intro x
    rw [hpolled.uses_iff, exists_cutAt_lt_iff]
    simp only [hstores, false_and, or_false]

theorem round_spec {poll : Poll} {s s' : ServerState σ} (ht : SocketTable s.server s.opened)
    (h : Round events s poll s') : RoundDone events poll s s' := by
  obtain ⟨hposs, hloop⟩ := h
  have h0 : (0 : Int) ∉ poll.readfds := fun hm => ht.zero_notMem_master (hposs.readfds_subset hm)
  obtain ⟨s₁, haccept, hslots⟩ := serverLoop_cases hloop
  rcases haccept with ⟨hl, -, haccept⟩ | ⟨hl, rfl⟩
  · have hfresh := hposs.newSocket_fresh hl
    have hstep : ServerEvent.Step events s (.accepted poll.newSocket) s₁ := ⟨hfresh, haccept⟩
    have hpolled := slotsPolled_range h0 (socketTable_step ht hstep) hslots
    obtain ⟨es, hrun⟩ := hpolled.run
    have hrun' := (Run.snoc .nil hstep).trans hrun
    rcases acceptConnection_cases haccept with ⟨hfull, rfl⟩ | ⟨i, sub, hnext, -, rfl⟩
    · exact roundDone_of_not_stores (fun hs => hfull _ hs.2.choose_spec) ⟨_, hrun'⟩ hpolled
    · have hi := getElem?_of_nextSlot hnext
      have hstores : Stores poll s := ⟨hl, i, hi⟩
      have hnew : poll.newSocket ∉ poll.readfds :=
        fun hm => hfresh (ht.master_subset (hposs.readfds_subset hm))
      refine
        { run := ⟨_, hrun'⟩
          fdmax_stored := fun _ => hpolled.fdmax
          fdmax_kept := fun hs => absurd hstores hs
          table := hpolled.table
          uses_iff := ?_ }
      have hne : poll.newSocket ≠ 0 := fun heq => hfresh (heq ▸ ht.zero_open)
      intro x
      rw [hpolled.uses_iff, exists_cutAt_lt_iff]
      simp only [cutAt_fillSlot_iff h0 hnew hi, uses_fillSlot_iff hi hne, hstores, true_and]
  · have hpolled := slotsPolled_range h0 ht hslots
    exact roundDone_of_not_stores (fun hs => hl hs.1) hpolled.run hpolled

/-- A round is a run of server events, so the table outlives it. -/
theorem socketTable_round {poll : Poll} {s s' : ServerState σ}
    (ht : SocketTable s.server s.opened) (h : Round events s poll s') :
    SocketTable s'.server s'.opened := (round_spec ht h).table

/-- Every run of rounds is a run of server events. -/
theorem serverLoop_events {s₀ s : ServerState σ} {polls : List Poll}
    (ht : SocketTable s₀.server s₀.opened) (h : Run (Round events) s₀ polls s) :
    ∃ es, Run (fun s e s' => ServerEvent.Step events s e s') s₀ es s := by
  refine (h.invariant (I := fun t => SocketTable t.server t.opened ∧
    ∃ es, Run (fun s e s' => ServerEvent.Step events s e s') s₀ es t) ⟨ht, [], .nil⟩ ?_).2
  rintro t poll t' ⟨htable, es, hrun⟩ hround
  obtain ⟨es', hrun'⟩ := (round_spec htable hround).run
  exact ⟨socketTable_round htable hround, es ++ es', hrun.trans hrun'⟩

/-! ### What `select` watches -/

/-- `select` is called with a first argument above every descriptor it should
watch: those of `master`, the listener and every connection. -/
def Watched (s : ServerState σ) : Prop :=
  (∀ fd ∈ s.server.master, fd < s.fdmax + 1) ∧ s.server.listener < s.fdmax + 1 ∧
    ∀ i fd, s.server.Connected i fd → fd < s.fdmax + 1

/-- A connection stored in this round has a descriptor that is not below the listener's
or that of a client that stays. -/
def FdmaxSafe (poll : Poll) (s : ServerState σ) : Prop :=
  Stores poll s →
    ∀ fd, s.server.Uses fd → fd ≤ poll.newSocket ∨ ∃ i, CutAt poll s.server i fd

theorem watched_iff_uses {s : ServerState σ} (ht : SocketTable s.server s.opened) :
    Watched s ↔ ∀ fd, s.server.Uses fd → fd ≤ s.fdmax := by
  constructor
  · rintro ⟨-, hlistener, hclients⟩ fd (rfl | ⟨i, hi⟩)
    · exact Int.lt_add_one_iff.mp hlistener
    · exact Int.lt_add_one_iff.mp (hclients i fd hi)
  · intro h
    refine ⟨fun fd hfd => Int.lt_add_one_iff.mpr (h fd (ht.uses_of_mem_master fd hfd)), ?_, ?_⟩
    · exact Int.lt_add_one_iff.mpr (h _ (.inl rfl))
    · exact fun i fd hi => Int.lt_add_one_iff.mpr (h fd (.inr ⟨i, hi⟩))

/-- Where everything is watched, a round keeps it so exactly when it is safe. -/
theorem watched_round_iff {poll : Poll} {s s' : ServerState σ}
    (ht : SocketTable s.server s.opened) (hw : Watched s) (h : Round events s poll s') :
    Watched s' ↔ FdmaxSafe poll s := by
  have hdone := round_spec ht h
  rw [watched_iff_uses (socketTable_round ht h)]
  rw [watched_iff_uses ht] at hw
  by_cases hs : Stores poll s
  · rw [hdone.fdmax_stored hs]
    constructor
    · intro hall _ fd hfd
      by_cases hcut : ∃ i, CutAt poll s.server i fd
      · exact .inr hcut
      · exact .inl (hall fd ((hdone.uses_iff fd).mpr ⟨.inl hfd, hcut⟩))
    · intro hsafe fd hfd
      obtain ⟨hmem | ⟨-, rfl⟩, hcut⟩ := (hdone.uses_iff fd).mp hfd
      · exact (hsafe hs fd hmem).resolve_right hcut
      · exact le_refl _
  · rw [hdone.fdmax_kept hs]
    refine iff_of_true ?_ (fun hs' => absurd hs' hs)
    intro fd hfd
    obtain ⟨hmem | ⟨hs', -⟩, -⟩ := (hdone.uses_iff fd).mp hfd
    · exact hw fd hmem
    · exact absurd hs' hs

theorem watched_start {listener : Int} {opened : Finset Int} (h : Startable listener opened)
    (fdSet : FdSet) (maxClient : Nat) (sub : σ) :
    Watched (ServerState.start fdSet listener maxClient opened sub) := by
  rw [watched_iff_uses (socketTable_start h fdSet maxClient sub)]
  rintro fd (rfl | ⟨i, hi⟩)
  · exact le_refl _
  · exact absurd hi (not_connected_replicate rfl)

/-- **When `select` watches every client.** Along any rounds of the loop, every
state reached is watched if and only if every round on the way is safe. -/
theorem watched_iff {listener : Int} {opened : Finset Int} (h : Startable listener opened)
    (fdSet : FdSet) (maxClient : Nat) (sub : σ) (polls : List Poll) (s : ServerState σ) :
    Watched (ServerState.start fdSet listener maxClient opened sub) ∧
      (Run (fun s poll s' => Round events s poll s' ∧ Watched s')
          (ServerState.start fdSet listener maxClient opened sub) polls s ↔
        Run (fun s poll s' => Round events s poll s' ∧ FdmaxSafe poll s)
          (ServerState.start fdSet listener maxClient opened sub) polls s) := by
  have h₀ := watched_start h fdSet maxClient sub
  refine ⟨h₀, Run.iff_of_invariant
    (I := fun s => SocketTable s.server s.opened ∧ Watched s)
    ⟨socketTable_start h fdSet maxClient sub, h₀⟩ ?_ ?_⟩
  · rintro s poll s' ⟨ht, hw⟩ ⟨hround, hw'⟩
    exact ⟨⟨hround, (watched_round_iff ht hw hround).mp hw'⟩, socketTable_round ht hround, hw'⟩
  · rintro s poll s' ⟨ht, hw⟩ ⟨hround, hsafe⟩
    have hw' := (watched_round_iff ht hw hround).mpr hsafe
    exact ⟨⟨hround, hw'⟩, socketTable_round ht hround, hw'⟩

/-- A round in which a connection arrives on `newSocket`, for the listener 3. -/
def acceptPoll (newSocket : Int) : Poll := { readfds := {3}, newSocket := newSocket }

/-- A round in which descriptor 4 is found closed. -/
def closePoll : Poll := { readfds := {4} }

/-- A server with two slots: the listener got descriptor 3. -/
def smallServer : ServerState Unit :=
  .start (.bits 1024) 3 2 {0, 1, 2} ()

theorem startable_smallServer : Startable 3 {0, 1, 2} := ⟨by decide, by decide⟩

/-- The table of that server after some connections. -/
def smallState (sockets : List Int) (master opened : Finset Int) (fdmax : Int) : ServerState Unit :=
  { server := { listener := 3, clientSockets := sockets, master := master }
    fdmax := fdmax
    opened := opened
    sub := () }

theorem round_first :
    Round TcpServer.events smallServer (acceptPoll 4)
      (smallState [4, 0] {4, 3} {4, 3, 0, 1, 2} 4) :=
  ⟨⟨by decide, by decide⟩, by decide⟩

theorem watched_iff_first : ∃ s,
    Run (fun s poll s' => Round TcpServer.events s poll s' ∧ Watched s') smallServer
      [acceptPoll 4] s := by
  refine ⟨_, (watched_iff startable_smallServer (.bits 1024) 2 () [acceptPoll 4] _).2.mpr
    (.snoc .nil ⟨round_first, ?_⟩)⟩
  rintro - fd (rfl | ⟨i, hi⟩)
  · exact .inl (by decide)
  · exact absurd hi (not_connected_replicate rfl)

/-- Descriptor 4 is closed and handed out again while 5 is connected: `fdmax`
drops to 4 and the client in slot 1 is not watched. -/
theorem unwatched_after_reuse : ∃ s,
    Run (Round TcpServer.events) smallServer
      [acceptPoll 4, acceptPoll 5, closePoll, acceptPoll 4] s ∧
    s.server.Connected 1 5 ∧ ¬ Watched s := by
  have h2 : Round TcpServer.events (smallState [4, 0] {4, 3} {4, 3, 0, 1, 2} 4) (acceptPoll 5)
      (smallState [4, 5] {5, 4, 3} {5, 4, 3, 0, 1, 2} 5) := ⟨⟨by decide, by decide⟩, by decide⟩
  have h3 : Round TcpServer.events (smallState [4, 5] {5, 4, 3} {5, 4, 3, 0, 1, 2} 5) closePoll
      (smallState [0, 5] {5, 3} {5, 3, 0, 1, 2} 5) := ⟨⟨by decide, by decide⟩, by decide⟩
  have h4 : Round TcpServer.events (smallState [0, 5] {5, 3} {5, 3, 0, 1, 2} 5) (acceptPoll 4)
      (smallState [4, 5] {4, 5, 3} {4, 5, 3, 0, 1, 2} 4) := ⟨⟨by decide, by decide⟩, by decide⟩
  refine ⟨_, .snoc (.snoc (.snoc (.snoc .nil round_first) h2) h3) h4, ⟨rfl, by decide⟩, ?_⟩
  intro hw
  exact absurd (hw.1 5 (by decide)) (by decide)

end IoTRepublic
