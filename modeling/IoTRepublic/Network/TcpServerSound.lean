import IoTRepublic.Network.TcpServer
import IoTRepublic.Lib.Transition

/-!
# IoTRepublic.Network.TcpServerSound

The socket table over whole runs, whatever the subclass does.

`ServerEvent` is the server seen one event at a time, in any order; a round of
`server_loop` is a run of such events (`serverLoop_events`), so an invariant of
the events is one of the loop. `SocketTable` is that invariant: the slots have
distinct descriptors, all of them open, and `select` watches nothing but them and the
listener.

That `select` watches all of them (`WatchesAll`) needs an `fd_set` with room for the
slots and the listener (`FdSet.Holds`). `fdmax` is no invariant of this kind: it
follows the last connection accepted, not the largest one. `watched_iff` gives the
condition on a round under which it still covers every descriptor.

The proofs go by the two things that change the table. `fillSlot` puts a descriptor that
was not in use into a free slot, and `freeSlot` takes out one that has no other slot; each
keeps `SocketTable`, and the subclass is only asked not to raise. What `select` watches is
then a matter of what `FD_SET` does with one more descriptor, on either platform.
-/

namespace IoTRepublic

open Cpp Transition

/-! ### The socket table -/

/-- Slot `i` is taken by the connection with descriptor `fd`. -/
def TcpServer.Connected (server : TcpServer) (i : Nat) (fd : Int) : Prop :=
  server.clientSockets[i]? = some fd ∧ fd ≠ 0

theorem exists_connected_iff {server : TcpServer} {i : Nat} :
    (∃ fd, server.Connected i fd) ↔ server.clientSockets.getD i 0 ≠ 0 := by
  rw [List.getD_eq_getElem?_getD]
  simp only [TcpServer.Connected]
  cases server.clientSockets[i]? with
  | none => simp
  | some fd => simp

/-- The descriptor is the listener's or a client's. -/
def TcpServer.Uses (server : TcpServer) (fd : Int) : Prop :=
  fd = server.listener ∨ ∃ i, server.Connected i fd

/-- The table, `master` and the kernel agree. -/
structure SocketTable (server : TcpServer) (opened : Finset Int) : Prop where
  /-- Descriptor zero, which marks a free slot, is taken by the standard input. -/
  zero_open : 0 ∈ opened
  listener_ne : server.listener ≠ 0
  listener_open : server.listener ∈ opened
  listener_free : ∀ i, ¬ server.Connected i server.listener
  connected_open : ∀ i fd, server.Connected i fd → fd ∈ opened
  distinct : ∀ i j fd, server.Connected i fd → server.Connected j fd → i = j
  uses_of_mem_master : ∀ fd ∈ server.master, server.Uses fd

namespace SocketTable

variable {server : TcpServer} {opened : Finset Int} (h : SocketTable server opened)

include h

theorem zero_notMem_master : (0 : Int) ∉ server.master := by
  intro hmem
  rcases h.uses_of_mem_master 0 hmem with h0 | ⟨i, -, h0⟩
  · exact h.listener_ne h0.symm
  · exact h0 rfl

theorem open_of_uses {fd : Int} (hfd : server.Uses fd) : fd ∈ opened := by
  rcases hfd with rfl | ⟨i, hi⟩
  · exact h.listener_open
  · exact h.connected_open i fd hi

theorem master_subset : server.master ⊆ opened :=
  fun fd hfd => h.open_of_uses (h.uses_of_mem_master fd hfd)

end SocketTable

/-! ### A slot is filled or freed -/

/-- The set `FD_SET` leaves, where it does not fault. -/
def FdSet.added : FdSet → Int → Finset Int → Finset Int
  | bits _, fd, set => insert fd set
  | array size, fd, set => if set.card < size then insert fd set else set

theorem FdSet.add_eq {fdSet : FdSet} {fd : Int} {set set' : Finset Int}
    (h : fdSet.add fd set = .ok set') : set' = fdSet.added fd set := by
  cases fdSet with
  | bits size =>
      simp only [FdSet.add] at h
      split at h
      · exact (Except.ok.inj h).symm
      · cases h
  | array size => exact (Except.ok.inj h).symm

theorem FdSet.eq_or_mem_of_mem_added {fdSet : FdSet} {fd x : Int} {set : Finset Int}
    (h : x ∈ fdSet.added fd set) : x = fd ∨ x ∈ set := by
  cases fdSet with
  | bits size => exact Finset.mem_insert.mp h
  | array size =>
      simp only [FdSet.added] at h
      split at h
      · exact Finset.mem_insert.mp h
      · exact .inr h

/-- `accept` fills a free slot. -/
def TcpServer.fillSlot (server : TcpServer) (i : Nat) (fd : Int) : TcpServer :=
  { server with
    clientSockets := server.clientSockets.set i fd
    master := server.fdSet.added fd server.master }

/-- `CutConnection` frees the slot of `fd`. -/
def TcpServer.freeSlot (server : TcpServer) (i : Nat) (fd : Int) : TcpServer :=
  { server with clientSockets := server.clientSockets.set i 0, master := server.master.erase fd }

theorem connected_fillSlot_iff {server : TcpServer} {i : Nat} {fd : Int}
    (hi : server.clientSockets[i]? = some 0) (hfd : fd ≠ 0) (j : Nat) (x : Int) :
    (server.fillSlot i fd).Connected j x ↔ (j = i ∧ x = fd) ∨ server.Connected j x := by
  obtain ⟨hlt, h0⟩ := List.getElem?_eq_some_iff.mp hi
  simp only [TcpServer.Connected, TcpServer.fillSlot, List.getElem?_set]
  by_cases hj : i = j
  · subst hj
    simp only [if_true, hlt, hi, Option.some.injEq, true_and]
    constructor
    · rintro ⟨rfl, -⟩
      exact .inl rfl
    · rintro (rfl | ⟨rfl, h⟩)
      · exact ⟨rfl, hfd⟩
      · exact absurd rfl h
  · simp [hj, Ne.symm hj]

theorem connected_freeSlot_iff {server : TcpServer} {i : Nat} {fd : Int} (j : Nat) (x : Int) :
    (server.freeSlot i fd).Connected j x ↔ j ≠ i ∧ server.Connected j x := by
  simp only [TcpServer.Connected, TcpServer.freeSlot, List.getElem?_set]
  by_cases hj : i = j
  · subst hj
    by_cases hlt : i < server.clientSockets.length
    · simp only [if_true, hlt, Option.some.injEq, ne_eq, not_true_eq_false, false_and, iff_false,
        not_and, not_not]
      exact fun h => h.symm
    · simp [hlt]
  · simp [hj, Ne.symm hj]

theorem uses_fillSlot_iff {server : TcpServer} {i : Nat} {fd : Int}
    (hi : server.clientSockets[i]? = some 0) (hfd : fd ≠ 0) (x : Int) :
    (server.fillSlot i fd).Uses x ↔ server.Uses x ∨ x = fd := by
  simp only [TcpServer.Uses, connected_fillSlot_iff hi hfd]
  constructor
  · rintro (hl | ⟨j, ⟨-, rfl⟩ | hj⟩)
    · exact .inl (.inl hl)
    · exact .inr rfl
    · exact .inl (.inr ⟨j, hj⟩)
  · rintro ((hl | ⟨j, hj⟩) | rfl)
    · exact .inl hl
    · exact .inr ⟨j, .inr hj⟩
    · exact .inr ⟨i, .inl ⟨rfl, rfl⟩⟩

/-- The descriptor of the slot is in use no more: it has only this one slot, and every
other one keeps its own. -/
theorem SocketTable.uses_freeSlot_iff {server : TcpServer} {opened : Finset Int}
    (h : SocketTable server opened) {i : Nat} {fd : Int} (hi : server.Connected i fd) (x : Int) :
    (server.freeSlot i fd).Uses x ↔ server.Uses x ∧ x ≠ fd := by
  simp only [TcpServer.Uses, connected_freeSlot_iff]
  constructor
  · rintro (hl | ⟨j, hne, hj⟩)
    · refine ⟨.inl hl, ?_⟩
      rintro rfl
      exact h.listener_free i (hl ▸ hi)
    · refine ⟨.inr ⟨j, hj⟩, ?_⟩
      rintro rfl
      exact hne (h.distinct j i x hj hi)
  · rintro ⟨hl | ⟨j, hj⟩, hne⟩
    · exact .inl hl
    · refine .inr ⟨j, ?_, hj⟩
      rintro rfl
      exact hne (Option.some.inj (hj.1.symm.trans hi.1))

theorem socketTable_fillSlot {server : TcpServer} {opened : Finset Int} {i : Nat} {fd : Int}
    (h : SocketTable server opened) (hi : server.clientSockets[i]? = some 0) (hfd : fd ∉ opened) :
    SocketTable (server.fillSlot i fd) (insert fd opened) := by
  have hne : fd ≠ 0 := by
    rintro rfl
    exact hfd h.zero_open
  -- The new descriptor was not open, so no slot holds it yet.
  have hold : ∀ j x, server.Connected j x → x ≠ fd := by
    rintro j x hx rfl
    exact hfd (h.connected_open j x hx)
  refine
    { zero_open := Finset.mem_insert_of_mem h.zero_open
      listener_ne := h.listener_ne
      listener_open := Finset.mem_insert_of_mem h.listener_open
      listener_free := ?_
      connected_open := ?_
      distinct := ?_
      uses_of_mem_master := ?_ }
  · intro j hj
    rcases (connected_fillSlot_iff hi hne j _).mp hj with ⟨-, hl⟩ | hl
    · exact hfd (hl ▸ h.listener_open)
    · exact h.listener_free j hl
  · intro j x hj
    rcases (connected_fillSlot_iff hi hne j x).mp hj with ⟨-, rfl⟩ | hx
    · exact Finset.mem_insert_self _ _
    · exact Finset.mem_insert_of_mem (h.connected_open j x hx)
  · intro j k x hj hk
    rcases (connected_fillSlot_iff hi hne j x).mp hj with ⟨rfl, hx⟩ | hx <;>
      rcases (connected_fillSlot_iff hi hne k x).mp hk with ⟨rfl, hy⟩ | hy
    · rfl
    · exact absurd hx (hold k x hy)
    · exact absurd hy (hold j x hx)
    · exact h.distinct j k x hx hy
  · intro x hx
    rw [uses_fillSlot_iff hi hne]
    rcases FdSet.eq_or_mem_of_mem_added hx with rfl | hx
    · exact .inr rfl
    · exact .inl (h.uses_of_mem_master x hx)

theorem socketTable_freeSlot {server : TcpServer} {opened : Finset Int} {i : Nat} {fd : Int}
    (h : SocketTable server opened) (hi : server.Connected i fd) :
    SocketTable (server.freeSlot i fd) (opened.erase fd) := by
  have hl : server.listener ≠ fd := by
    rintro rfl
    exact h.listener_free i hi
  -- The descriptor that is closed belongs to this slot only.
  have hother : ∀ j x, j ≠ i → server.Connected j x → x ≠ fd := by
    rintro j x hj hx rfl
    exact hj (h.distinct j i x hx hi)
  refine
    { zero_open := Finset.mem_erase_of_ne_of_mem hi.2.symm h.zero_open
      listener_ne := h.listener_ne
      listener_open := Finset.mem_erase_of_ne_of_mem hl h.listener_open
      listener_free := ?_
      connected_open := ?_
      distinct := ?_
      uses_of_mem_master := ?_ }
  · intro j hj
    exact h.listener_free j ((connected_freeSlot_iff j _).mp hj).2
  · intro j x hj
    obtain ⟨hne, hx⟩ := (connected_freeSlot_iff j x).mp hj
    exact Finset.mem_erase_of_ne_of_mem (hother j x hne hx) (h.connected_open j x hx)
  · intro j k x hj hk
    exact h.distinct j k x ((connected_freeSlot_iff j x).mp hj).2
      ((connected_freeSlot_iff k x).mp hk).2
  · intro x hx
    obtain ⟨hne, hx⟩ := Finset.mem_erase.mp hx
    exact (h.uses_freeSlot_iff hi x).mpr ⟨h.uses_of_mem_master x hx, hne⟩

/-! ### What each operation does -/

section Operations

variable {σ : Type} {events : ServerEvents σ}

/-- What is sent over a slot goes to the slot's descriptor. -/
theorem getElem?_of_sent {server : TcpServer} {i : Nat} {buffer : List Byte} {fd : Int}
    (h : server.sendDataToExistsConnection i buffer = .ok (some fd)) :
    server.clientSockets[i]? = some fd := by
  obtain ⟨socket, hsocket, h⟩ := bind_ok_iff.mp h
  split at h
  · obtain ⟨_, -, h⟩ := bind_ok_iff.mp h
    obtain rfl := Option.some.inj (Except.ok.inj h)
    exact vectorAt_nat_ok_iff.mp hsocket
  · simp at h

theorem returns_sendDataToExistsConnection {server : TcpServer} {i : Nat} {buffer : List Byte}
    (hi : i < server.clientSockets.length) (hbuffer : buffer ≠ []) :
    Returns (server.sendDataToExistsConnection i buffer) := by
  obtain ⟨socket, hsocket⟩ := returns_vectorAt_iff.mpr hi
  obtain ⟨b, hb⟩ := returns_vectorAt_iff.mpr (List.length_pos_iff.mpr hbuffer)
  refine returns_bind_iff.mpr ⟨socket, hsocket, ?_⟩
  split
  · exact returns_bind_iff.mpr ⟨b, hb, returns_ok _⟩
  · exact returns_ok _

/-- The slot an accepted connection would take: the first free one. -/
def TcpServer.nextSlot (server : TcpServer) : Option Nat := server.clientSockets.findIdx? (· = 0)

theorem getElem?_of_nextSlot {server : TcpServer} {i : Nat} (h : server.nextSlot = some i) :
    server.clientSockets[i]? = some 0 := by
  obtain ⟨hlt, h0, -⟩ := List.findIdx?_eq_some_iff_getElem.mp h
  rw [List.getElem?_eq_getElem hlt]
  simpa using h0

/-- An accepted connection stays without a slot, or fills the first free one. -/
theorem acceptConnection_cases {fd : Int} {s s' : ServerState σ}
    (h : s.acceptConnection events fd = .ok s') :
    ((∀ i : Nat, s.server.clientSockets[i]? ≠ some 0) ∧
        s' = { s with opened := insert fd s.opened }) ∨
      ∃ i sub, s.server.nextSlot = some i ∧
        events.newConnection (s.server.fillSlot i fd) i s.sub = .ok sub ∧
        s' = { server := s.server.fillSlot i fd, fdmax := fd, opened := insert fd s.opened
               sub := sub } := by
  unfold ServerState.acceptConnection at h
  split at h
  · rename_i hnone
    refine .inl ⟨?_, (Except.ok.inj h).symm⟩
    intro i hi
    obtain ⟨hlt, h0⟩ := List.getElem?_eq_some_iff.mp hi
    have := List.findIdx?_eq_none_iff.mp hnone _ (List.getElem_mem hlt)
    simp [h0] at this
  · rename_i i hsome
    obtain ⟨master, hmaster, h⟩ := bind_ok_iff.mp h
    obtain rfl := FdSet.add_eq hmaster
    obtain ⟨sub, hsub, hs'⟩ := bind_ok_iff.mp h
    exact .inr ⟨i, sub, hsome, hsub, (Except.ok.inj hs').symm⟩

theorem cutConnection_cases {i : Nat} {s s' : ServerState σ}
    (h : s.cutConnection events i = .ok s') :
    ∃ fd sub, s.server.clientSockets[i]? = some fd ∧
      events.connectionDenied (s.server.freeSlot i fd) i s.sub = .ok sub ∧
      s' = { s with
          server := s.server.freeSlot i fd, opened := s.opened.erase fd, sub := sub } := by
  obtain ⟨fd, hfd, h⟩ := bind_ok_iff.mp h
  obtain ⟨sub, hsub, hs'⟩ := bind_ok_iff.mp h
  exact ⟨fd, sub, vectorAt_nat_ok_iff.mp hfd, hsub, (Except.ok.inj hs').symm⟩

theorem receiveData_cases {i : Nat} {buffer : List Byte} {s s' : ServerState σ}
    (h : s.receiveData events i buffer = .ok s') :
    ∃ sub, events.receivedData s.server i buffer s.sub = .ok sub ∧ s' = { s with sub := sub } := by
  obtain ⟨sub, hsub, hs'⟩ := bind_ok_iff.mp h
  exact ⟨sub, hsub, (Except.ok.inj hs').symm⟩

/-- A slot that is not ready is skipped; one that is loses its connection or
hands its data on. -/
theorem pollSlot_cases {poll : Poll} {i : Nat} {s s' : ServerState σ}
    (h : s.pollSlot events poll i = .ok s') :
    ∃ fd, s.server.clientSockets[i]? = some fd ∧
      ((fd ∉ poll.readfds ∧ s' = s) ∨
        (fd ∈ poll.readfds ∧ poll.received i = [] ∧ s.cutConnection events i = .ok s') ∨
        (fd ∈ poll.readfds ∧ poll.received i ≠ [] ∧
          s.receiveData events i (poll.received i) = .ok s')) := by
  obtain ⟨fd, hfd, h⟩ := bind_ok_iff.mp h
  refine ⟨fd, vectorAt_nat_ok_iff.mp hfd, ?_⟩
  split at h
  · rename_i hready
    split at h
    · exact .inr (.inl ⟨hready, ‹_›, h⟩)
    · exact .inr (.inr ⟨hready, ‹_›, h⟩)
  · exact .inl ⟨‹_›, (Except.ok.inj h).symm⟩

theorem serverLoop_cases {poll : Poll} {s s' : ServerState σ}
    (h : s.serverLoop events poll = .ok (some s')) :
    ∃ s₁, ((s.server.listener ∈ poll.readfds ∧ 0 ≤ poll.newSocket ∧
          s.acceptConnection events poll.newSocket = .ok s₁) ∨
        (s.server.listener ∉ poll.readfds ∧ s₁ = s)) ∧
      (List.range s₁.server.clientSockets.length).foldlM
        (fun s i => s.pollSlot events poll i) s₁ = .ok s' := by
  unfold ServerState.serverLoop at h
  split at h
  · simp [pure, Except.pure] at h
  split at h
  · simp [pure, Except.pure] at h
  rename_i hnew
  dsimp only at h
  split at h
  · rename_i hl
    obtain ⟨s₁, hs₁, h⟩ := bind_ok_iff.mp h
    obtain ⟨s₂, hs₂, h⟩ := bind_ok_iff.mp h
    obtain rfl := Option.some.inj (Except.ok.inj h)
    exact ⟨s₁, .inl ⟨hl, Int.not_lt.mp (fun hneg => hnew ⟨hl, hneg⟩), hs₁⟩, hs₂⟩
  · rw [ok_bind] at h
    obtain ⟨s₂, hs₂, h⟩ := bind_ok_iff.mp h
    obtain rfl := Option.some.inj (Except.ok.inj h)
    exact ⟨s, .inr ⟨‹_›, rfl⟩, hs₂⟩

end Operations

/-! ### The server one event at a time -/

/-- What can happen to the server, as far as its state is concerned: a round of the loop
is a row of these. -/
inductive ServerEvent
  | accepted (newSocket : Int)
  | received (socketIndex : Nat) (buffer : List Byte)
  | disconnected (socketIndex : Nat)

namespace ServerEvent

/-- The event can happen: the kernel hands out a descriptor that is not open, and
reports only on connections that exist. -/
def Possible {σ : Type} (s : ServerState σ) : ServerEvent → Prop
  | accepted newSocket => newSocket ∉ s.opened
  | received socketIndex buffer =>
    buffer ≠ [] ∧ ∃ fd, s.server.Connected socketIndex fd
  | disconnected socketIndex => ∃ fd, s.server.Connected socketIndex fd

instance {σ : Type} (s : ServerState σ) (e : ServerEvent) : Decidable (e.Possible s) :=
  match e with
  | accepted newSocket => inferInstanceAs (Decidable (newSocket ∉ s.opened))
  | received _ _ =>
    decidable_of_iff _ (and_congr_right fun _ => exists_connected_iff.symm)
  | disconnected _ => decidable_of_iff _ exists_connected_iff.symm

/-- The server's reaction, by the function of the source that handles the event. -/
def step {σ : Type} (events : ServerEvents σ) (s : ServerState σ) :
    ServerEvent → Except Fault (ServerState σ)
  | accepted newSocket => s.acceptConnection events newSocket
  | received socketIndex buffer => s.receiveData events socketIndex buffer
  | disconnected socketIndex => s.cutConnection events socketIndex

/-- A possible event and its effect. The kernel decides what is possible, the program what
comes of it. -/
def Step {σ : Type} (events : ServerEvents σ) (s : ServerState σ) (e : ServerEvent)
    (s' : ServerState σ) : Prop :=
  e.Possible s ∧ e.step events s = .ok s'

end ServerEvent

section Runs

variable {σ : Type} {events : ServerEvents σ}

/-- One event keeps the socket table: no descriptor in two slots, those in use open, and
nothing else watched. -/
theorem socketTable_step {s s' : ServerState σ} {e : ServerEvent}
    (h : SocketTable s.server s.opened) (hs : e.Step events s s') :
    SocketTable s'.server s'.opened := by
  obtain ⟨hposs, hstep⟩ := hs
  cases e with
  | accepted newSocket =>
      rcases acceptConnection_cases hstep with ⟨-, rfl⟩ | ⟨i, sub, hi, -, rfl⟩
      · exact { h with
          zero_open := Finset.mem_insert_of_mem h.zero_open
          listener_open := Finset.mem_insert_of_mem h.listener_open
          connected_open := fun i fd hi => Finset.mem_insert_of_mem (h.connected_open i fd hi) }
      · exact socketTable_fillSlot h (getElem?_of_nextSlot hi) hposs
  | received socketIndex buffer =>
      obtain ⟨sub, -, rfl⟩ := receiveData_cases hstep
      exact h
  | disconnected socketIndex =>
      obtain ⟨fd, sub, hfd, -, rfl⟩ := cutConnection_cases hstep
      obtain ⟨fd', hfd'⟩ := hposs
      have hconn : s.server.Connected socketIndex fd := by
        obtain rfl := Option.some.inj (hfd.symm.trans hfd'.1)
        exact hfd'
      exact socketTable_freeSlot h hconn

/-- There is room for so many clients and the listener. Whether a bit exists for a
descriptor does not depend on how many there are. -/
def FdSet.Holds : FdSet → Nat → Prop
  | bits _, _ => True
  | array size, maxClient => maxClient < size

instance : (fdSet : FdSet) → (maxClient : Nat) → Decidable (fdSet.Holds maxClient)
  | .bits _, _ => inferInstanceAs (Decidable True)
  | .array _, _ => inferInstanceAs (Decidable (_ < _))

/-- What the kernel grants a server before its first round. -/
structure Startable (listener : Int) (opened : Finset Int) : Prop where
  zero_open : 0 ∈ opened
  listener_fresh : listener ∉ opened

theorem not_connected_replicate {server : TcpServer} {n : Nat} {i : Nat} {fd : Int}
    (h : server.clientSockets = List.replicate n 0) : ¬ server.Connected i fd := by
  rintro ⟨hi, hne⟩
  rw [h, List.getElem?_replicate] at hi
  split at hi
  · exact hne (Option.some.inj hi).symm
  · exact absurd hi (by simp)

theorem socketTable_start {listener : Int} {opened : Finset Int} (h : Startable listener opened)
    (fdSet : FdSet) (maxClient : Nat) (sub : σ) :
    SocketTable (ServerState.start fdSet listener maxClient opened sub).server
      (ServerState.start fdSet listener maxClient opened sub).opened where
  zero_open := Finset.mem_insert_of_mem h.zero_open
  listener_ne := by
    rintro (rfl : listener = 0)
    exact h.listener_fresh h.zero_open
  listener_open := Finset.mem_insert_self _ _
  listener_free := fun _ => not_connected_replicate rfl
  connected_open := fun _ _ hi => absurd hi (not_connected_replicate rfl)
  distinct := fun _ _ _ hi _ => absurd hi (not_connected_replicate rfl)
  uses_of_mem_master := by
    intro fd hfd
    exact .inl (by simpa [ServerState.start] using hfd)

/-- The socket table holds after any events. -/
theorem socketTable_run {s₀ s : ServerState σ} {es : List ServerEvent}
    (h₀ : SocketTable s₀.server s₀.opened)
    (h : Run (fun s e s' => e.Step events s s') s₀ es s) : SocketTable s.server s.opened :=
  h.invariant (I := fun s => SocketTable s.server s.opened) h₀
    (fun _ _ _ hs hstep => socketTable_step hs hstep)

end Runs

end IoTRepublic
