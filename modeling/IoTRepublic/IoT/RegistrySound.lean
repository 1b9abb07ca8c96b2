import IoTRepublic.IoT.NumberedDevices

/-!
# IoTRepublic.IoT.RegistrySound

The device list against the socket table, over whole runs.

A device entry remembers a slot, not a connection, and slots are used again and
again. `Registry` says that this is enough: every entry was made on the connection
that occupies its slot now. What happened on which connection is read off the time
line (`Occupies`, `RegisteredOn`). `registry_run` has it for every run, together
with the socket table.

The invariant has three parts that need one another. An entry of the list was made on the
connection that has its slot (`present`); for that the connection must not have been
replaced meanwhile, so every connected slot has an occupation on the time line
(`occupied`); and for a registration to replace one entry only, the device IDs are
distinct. A cut connection takes its entries along before the slot can be given away
again.
-/

namespace IoTRepublic

open Cpp IoTUtility Transition

/-! ### Connections on the time line -/

/-- The connection with descriptor `fd` was stored in slot `i`, and has stayed
there for the actions `during`, up to the end of the time line. -/
structure Occupies (i : Nat) (fd : Int) (during log : List Action) : Prop where
  stored : ∃ before, log = before ++ .newConnection i fd :: during
  not_replaced : ∀ fd', .newConnection i fd' ∉ during
  not_denied : .connectionDenied i ∉ during

/-- A package of the slot's connection registered the device, and nothing has
registered its device ID since. -/
def RegisteredOn (device : IoTDeviceInfo) (during : List Action) : Prop :=
  ∃ before package after,
    during = before ++ .extracted device.socketIndex package
      :: .effect (.registered device) :: after ∧
    ∀ device', .effect (.registered device') ∈ after → device'.deviceID ≠ device.deviceID

/-- The action ends or replaces no connection of slot `i`. -/
def Keeps (i : Nat) : Action → Prop
  | .newConnection j _ => j ≠ i
  | .connectionDenied j => j ≠ i
  | _ => True

/-- The action registers no device with this ID. -/
def KeepsDevice (id : Text) : Action → Prop
  | .effect (.registered device) => device.deviceID ≠ id
  | _ => True

/-- The effect has to do with no entry of the device list. -/
def Effect.Quiet : Effect → Prop
  | .registered _ => False
  | .forwarded _ _ _ => False
  | _ => True

/-- The action has to do with no connection and no entry of the device list. -/
def Neutral : Action → Prop
  | .newConnection _ _ => False
  | .connectionDenied _ => False
  | .effect e => e.Quiet
  | _ => True

theorem Neutral.keeps {a : Action} (h : Neutral a) (i : Nat) : Keeps i a := by
  cases a with
  | newConnection _ _ => exact h.elim
  | connectionDenied _ => exact h.elim
  | _ => exact trivial

theorem Neutral.keepsDevice {a : Action} (h : Neutral a) (id : Text) : KeepsDevice id a := by
  cases a with
  | effect e =>
      cases e with
      | registered _ => exact h.elim
      | _ => exact trivial
  | _ => exact trivial

/-- No effect of a package ends a connection. -/
theorem keeps_dispatched (i k : Nat) (package : IoTPackage) (e : Effect) :
    ∀ a ∈ [Action.extracted k package, .effect e], Keeps i a := by
  intro a ha
  simp only [List.mem_cons, List.not_mem_nil, or_false] at ha
  rcases ha with rfl | rfl <;> exact trivial

theorem Occupies.append {i : Nat} {fd : Int} {during log : List Action}
    (h : Occupies i fd during log) {tail : List Action} (htail : ∀ a ∈ tail, Keeps i a) :
    Occupies i fd (during ++ tail) (log ++ tail) := by
  obtain ⟨before, rfl⟩ := h.stored
  refine ⟨⟨before, by simp⟩, fun fd' hmem => ?_, fun hmem => ?_⟩
  · rcases List.mem_append.mp hmem with hmem | hmem
    · exact h.not_replaced fd' hmem
    · exact htail _ hmem rfl
  · rcases List.mem_append.mp hmem with hmem | hmem
    · exact h.not_denied hmem
    · exact htail _ hmem rfl

theorem RegisteredOn.append {device : IoTDeviceInfo} {during : List Action}
    (h : RegisteredOn device during) {tail : List Action}
    (htail : ∀ a ∈ tail, KeepsDevice device.deviceID a) : RegisteredOn device (during ++ tail) := by
  obtain ⟨before, package, after, rfl, hafter⟩ := h
  refine ⟨before, package, after ++ tail, by simp, fun device' hmem => ?_⟩
  rcases List.mem_append.mp hmem with hmem | hmem
  · exact hafter device' hmem
  · exact htail _ hmem

/-! ### The registry -/

/-- The device's entry was made on the connection that now occupies its slot. -/
def Present (server : TcpServer) (log : List Action) (device : IoTDeviceInfo) : Prop :=
  ∃ fd during, server.Connected device.socketIndex fd ∧ Occupies device.socketIndex fd during log ∧
    RegisteredOn device during

theorem Present.append {server : TcpServer} {log tail : List Action} {device : IoTDeviceInfo}
    (h : Present server log device) (hkeeps : ∀ a ∈ tail, Keeps device.socketIndex a)
    (hdevice : ∀ a ∈ tail, KeepsDevice device.deviceID a) :
    Present server (log ++ tail) device := by
  obtain ⟨fd, during, hconn, hocc, hreg⟩ := h
  exact ⟨fd, during ++ tail, hconn, hocc.append hkeeps, hreg.append hdevice⟩

/-- A package passed on goes to the connection that has registered the device. -/
def PassedOn (past : List Action) : Action → Prop
  | .effect (.forwarded device (some fd) _) =>
    ∃ during, Occupies device.socketIndex fd during past ∧ RegisteredOn device during
  | _ => True

theorem Neutral.passedOn {a : Action} (h : Neutral a) (past : List Action) : PassedOn past a := by
  cases a with
  | effect e =>
      cases e with
      | forwarded _ _ _ => exact h.elim
      | _ => exact trivial
  | _ => exact trivial

/-- The device list and the time line. -/
structure Registry (server : TcpServer) (devices : List IoTDeviceInfo) (log : List Action) :
    Prop where
  distinct : (devices.map (·.deviceID)).Nodup
  occupied : ∀ i fd, server.Connected i fd → ∃ during, Occupies i fd during log
  present : ∀ device ∈ devices, Present server log device
  passedOn : AtEach PassedOn log

namespace Registry

variable {server : TcpServer} {devices : List IoTDeviceInfo} {log : List Action}
  (h : Registry server devices log)

include h

/-- Neutral actions. -/
theorem append_neutral {tail : List Action} (htail : ∀ a ∈ tail, Neutral a) :
    Registry server devices (log ++ tail) where
  distinct := h.distinct
  occupied := by
    intro i fd hi
    obtain ⟨during, hocc⟩ := h.occupied i fd hi
    exact ⟨_, hocc.append fun a ha => (htail a ha).keeps i⟩
  present := by
    intro device hdevice
    exact (h.present device hdevice).append (fun a ha => (htail a ha).keeps _)
      (fun a ha => (htail a ha).keepsDevice _)
  passedOn := h.passedOn.append fun a ha => (htail a ha).passedOn

/-- A device registers on the connection in slot `k`: its entry replaces the one
with its device ID, wherever that came from. -/
theorem register {k : Nat} {fd : Int} (hk : server.Connected k fd) {device : IoTDeviceInfo}
    (hslot : device.socketIndex = k) (package : IoTPackage) :
    Registry server (devices.eraseP (·.deviceID = device.deviceID) ++ [device])
      (log ++ [.extracted k package, .effect (.registered device)]) := by
  subst hslot
  have hdistinct := nodup_map_replace h.distinct device
  -- The IDs are distinct, so erasing the first entry of the device erases all of them.
  rw [eraseP_eq_filter h.distinct] at hdistinct ⊢
  refine
    { distinct := hdistinct
      occupied := ?_
      present := ?_
      passedOn := ?_ }
  · intro i fd' hi
    obtain ⟨during, hocc⟩ := h.occupied i fd' hi
    exact ⟨_, hocc.append (keeps_dispatched i _ package _)⟩
  · intro device' hdevice'
    rcases List.mem_append.mp hdevice' with hold | hnew
    · obtain ⟨hmem, hne⟩ := List.mem_filter.mp hold
      refine (h.present device' hmem).append (keeps_dispatched _ _ package _) fun a ha => ?_
      simp only [List.mem_cons, List.not_mem_nil, or_false] at ha
      rcases ha with rfl | rfl
      · trivial
      · exact (of_decide_eq_true hne).symm
    · obtain rfl := List.mem_singleton.mp hnew
      obtain ⟨during, hocc⟩ := h.occupied _ fd hk
      exact ⟨fd, _, hk, hocc.append (keeps_dispatched _ _ package _), during, package, [], rfl,
        by simp⟩
  · refine h.passedOn.append fun a ha => ?_
    simp only [List.mem_cons, List.not_mem_nil, or_false] at ha
    rcases ha with rfl | rfl <;> exact fun _ => trivial

/-- A package is passed on to a device on the list. -/
theorem forward {k : Nat} {device : IoTDeviceInfo} {socket : Option Int} {buffer : List Byte}
    (hmem : device ∈ devices)
    (hsent : server.sendDataToExistsConnection device.socketIndex buffer = .ok socket)
    (package : IoTPackage) :
    Registry server devices
      (log ++ [.extracted k package, .effect (.forwarded device socket buffer)]) := by
  have hdevice : ∀ id, ∀ a ∈ [Action.extracted k package,
      .effect (.forwarded device socket buffer)], KeepsDevice id a := by
    intro id a ha
    simp only [List.mem_cons, List.not_mem_nil, or_false] at ha
    rcases ha with rfl | rfl <;> exact trivial
  refine
    { distinct := h.distinct
      occupied := ?_
      present := fun device' hd =>
        (h.present device' hd).append (keeps_dispatched _ _ package _) (hdevice _)
      passedOn := ?_ }
  · intro i fd hi
    obtain ⟨during, hocc⟩ := h.occupied i fd hi
    exact ⟨_, hocc.append (keeps_dispatched i _ package _)⟩
  · have hextracted : AtEach PassedOn (log ++ [.extracted k package]) :=
      atEach_concat_iff.mpr ⟨h.passedOn, trivial⟩
    rw [← List.singleton_append, ← List.append_assoc, atEach_concat_iff]
    refine ⟨hextracted, ?_⟩
    cases socket with
    | none => exact trivial
    | some fd =>
        -- The slot still has the connection that registered the device.
        obtain ⟨fd', during, hconn, hocc, hreg⟩ := h.present device hmem
        obtain rfl : fd' = fd := Option.some.inj (hconn.1.symm.trans (getElem?_of_sent hsent))
        exact ⟨_, hocc.append (by simp [Keeps]), hreg.append (by simp [KeepsDevice])⟩

/-- A connection is stored in a free slot. -/
theorem store {i : Nat} {fd : Int} (hi : server.clientSockets[i]? = some 0) (hfd : fd ≠ 0) :
    Registry (server.fillSlot i fd) devices (log ++ [.newConnection i fd]) := by
  -- No device is on the list for a free slot.
  have hfree : ∀ fd', ¬ server.Connected i fd' := by
    rintro fd' ⟨hfd', hne⟩
    exact hne (Option.some.inj (hfd'.symm.trans hi))
  have hkeeps : ∀ j, j ≠ i → ∀ a ∈ [Action.newConnection i fd], Keeps j a := by
    rintro j hj a ha
    obtain rfl := List.mem_singleton.mp ha
    exact hj.symm
  refine
    { distinct := h.distinct
      occupied := ?_
      present := ?_
      passedOn := ?_ }
  · intro j x hj
    rcases (connected_fillSlot_iff hi hfd j x).mp hj with ⟨rfl, rfl⟩ | hx
    · exact ⟨[], ⟨log, rfl⟩, by simp, by simp⟩
    · have hne : j ≠ i := fun he => hfree x (he ▸ hx)
      obtain ⟨during, hocc⟩ := h.occupied j x hx
      exact ⟨_, hocc.append (hkeeps j hne)⟩
  · intro device hdevice
    obtain ⟨x, during, hconn, hocc, hreg⟩ := h.present device hdevice
    have hne : device.socketIndex ≠ i := fun he => hfree x (he ▸ hconn)
    exact ⟨x, _, (connected_fillSlot_iff hi hfd _ x).mpr (.inr hconn),
      hocc.append (hkeeps _ hne), hreg.append (by simp [KeepsDevice])⟩
  · exact atEach_concat_iff.mpr ⟨h.passedOn, trivial⟩

/-- The connection of a slot is denied, and its devices leave the list. -/
theorem deny {i : Nat} {fd : Int} :
    Registry (server.freeSlot i fd) (devices.filter (·.socketIndex ≠ i))
      (log ++ [.connectionDenied i]) := by
  have hkeeps : ∀ j, j ≠ i → ∀ a ∈ [Action.connectionDenied i], Keeps j a := by
    rintro j hj a ha
    obtain rfl := List.mem_singleton.mp ha
    exact hj.symm
  refine
    { distinct := (List.filter_sublist.map _).nodup h.distinct
      occupied := ?_
      present := ?_
      passedOn := ?_ }
  · intro j x hj
    obtain ⟨hne, hx⟩ := (connected_freeSlot_iff j x).mp hj
    obtain ⟨during, hocc⟩ := h.occupied j x hx
    exact ⟨_, hocc.append (hkeeps j hne)⟩
  · intro device hdevice
    obtain ⟨hmem, hne⟩ := List.mem_filter.mp hdevice
    obtain ⟨x, during, hconn, hocc, hreg⟩ := h.present device hmem
    have hne : device.socketIndex ≠ i := of_decide_eq_true hne
    exact ⟨x, _, (connected_freeSlot_iff _ x).mpr ⟨hne, hconn⟩, hocc.append (hkeeps _ hne),
      hreg.append (by simp [KeepsDevice])⟩
  · exact atEach_concat_iff.mpr ⟨h.passedOn, trivial⟩

end Registry

/-! ### Every event -/

/-- The registry of a manager: its device list against the time line of its
connections. -/
def RegistryOf (server : TcpServer) (s : ManagerState) : Prop :=
  Registry server s.manager.registedDevices s.log

section Runs

variable {J : Jansson}

theorem registry_dispatchPackage {server : TcpServer} {socketIndex : Nat} {fd : Int}
    (hconn : server.Connected socketIndex fd) {package : IoTPackage} {s s' : ManagerState}
    (hfits : s.DevicesFit) (hs : RegistryOf server s)
    (h : ManagerState.dispatchPackage J server socketIndex package s = .ok s') :
    RegistryOf server s' := by
  obtain ⟨⟨manager, done⟩, hdispatch, h⟩ := bind_ok_iff.mp h
  obtain rfl := Except.ok.inj h
  -- Everything but a registration and a package passed on leaves the devices alone.
  have hquiet : (∀ e ∈ done, e.Quiet) →
      Registry server s.manager.registedDevices
        (s.log ++ .extracted socketIndex package :: done.map .effect) := fun hdone =>
    Registry.append_neutral hs (forall_mem_cons_effects trivial hdone)
  cases IoTManager.dispatch_cases hdispatch with
  | ignored hm hdone =>
      subst hm
      exact hquiet (by simp [hdone])
  | answered ipCount socket buffer hm hdone =>
      subst hm
      exact hquiet (by simp [hdone, Effect.Quiet])
  | registered device rules hslot hrules hm hdone =>
      subst hm hdone
      rw [RegistryOf, IoTManager.withoutDevice_eq hfits]
      exact Registry.register hs hconn hslot package
  | forwarded device socket hm hmem hsent hdone =>
      subst hm hdone
      exact Registry.forward hs hmem hsent package
  | ruleAdded rule ruler hadd hm hdone =>
      subst hm
      exact hquiet (by simp [hdone])
  | commanded cmd rules hcmd hrules hm =>
      subst hm
      refine hquiet fun e he => ?_
      obtain ⟨r, writeValue, sent, rfl⟩ := IoTManager.handleRulerCommand_done hrules e he
      trivial

theorem registry_receivedData {server : TcpServer} {socketIndex : Nat} {fd : Int}
    (hconn : server.Connected socketIndex fd) {chunk : List Byte} {s s' : ManagerState}
    (hfits : s'.DevicesFit) (hs : RegistryOf server s)
    (h : ManagerState.eventReceivedData J server socketIndex chunk s = .ok s') :
    RegistryOf server s' := by
  obtain ⟨old, hold, -⟩ := bind_ok_iff.mp h
  rw [ManagerState.eventReceivedData_eq (vectorAt_nat_ok_iff.mp hold)] at h
  obtain ⟨⟨s₁, error, rest⟩, hloop, h⟩ := bind_ok_iff.mp h
  obtain rfl := Except.ok.inj h
  have hbuffered : RegistryOf server (s.buffered socketIndex old chunk) :=
    Registry.append_neutral hs (by simp [Neutral])
  -- The list only grows in the loop, so the devices fit in every round of it.
  have hs₁ : RegistryOf server s₁ := by
    refine packageLoop_invariant (I := fun t => t.DevicesFit → RegistryOf server t) ?_
      (fun _ => hbuffered) hloop hfits
    intro package t t' ht hstep hfits'
    have hfitsBefore := ManagerState.devicesFit_of_dispatchPackage hstep hfits'
    exact registry_dispatchPackage hconn hfitsBefore (ht hfitsBefore) hstep
  rw [RegistryOf, ManagerState.settled]
  split
  · exact Registry.append_neutral hs₁ (by simp [Neutral])
  · exact hs₁

theorem registry_newConnection {server : TcpServer} {i : Nat} {fd : Int}
    (hi : server.clientSockets[i]? = some 0) (hfd : fd ≠ 0) {s s' : ManagerState}
    (hs : RegistryOf server s) (h : s.eventNewConnection (server.fillSlot i fd) i = .ok s') :
    RegistryOf (server.fillSlot i fd) s' := by
  obtain ⟨socket, hsocket, h⟩ := bind_ok_iff.mp h
  obtain rfl := Except.ok.inj h
  obtain ⟨hlt, -⟩ := List.getElem?_eq_some_iff.mp hi
  have hget := vectorAt_nat_ok_iff.mp hsocket
  rw [TcpServer.fillSlot, List.getElem?_set_self hlt] at hget
  obtain rfl := Option.some.inj hget
  exact Registry.store hs hi hfd

theorem registry_connectionDenied {server : TcpServer} {i : Nat} {fd : Int} {s s' : ManagerState}
    (hfits : s.DevicesFit) (hs : RegistryOf server s) (h : s.eventConnectionDenied i = .ok s') :
    RegistryOf (server.freeSlot i fd) s' := by
  obtain ⟨rules, -, rfl⟩ := ManagerState.eventConnectionDenied_cases h
  rw [RegistryOf, IoTManager.removeDeviceBySocketIndex_eq hfits]
  exact Registry.deny hs

/-- One event keeps the registry, as long as the devices fit. -/
theorem registry_step {s s' : ServerState ManagerState} {e : ServerEvent}
    (ht : SocketTable s.server s.opened) (hfits : s.sub.DevicesFit) (hfits' : s'.sub.DevicesFit)
    (hs : RegistryOf s.server s.sub)
    (h : e.Step (ManagerState.events J) s s') : RegistryOf s'.server s'.sub := by
  obtain ⟨hposs, hstep⟩ := h
  cases e with
  | accepted newSocket =>
      rcases acceptConnection_cases hstep with ⟨-, rfl⟩ | ⟨i, sub, hnext, hsub, rfl⟩
      · exact hs
      · have hfd : newSocket ≠ 0 := by
          rintro rfl
          exact hposs ht.zero_open
        exact registry_newConnection (getElem?_of_nextSlot hnext) hfd hs hsub
  | received socketIndex buffer =>
      obtain ⟨-, fd, hconn⟩ := hposs
      obtain ⟨sub, hsub, rfl⟩ := receiveData_cases hstep
      exact registry_receivedData hconn hfits' hs hsub
  | disconnected socketIndex =>
      obtain ⟨fd, sub, -, hsub, rfl⟩ := cutConnection_cases hstep
      exact registry_connectionDenied hfits hs hsub

theorem registry_initial {server : TcpServer} {maxClient : Nat}
    (hserver : server.clientSockets = List.replicate maxClient 0) (actionFrequency : Int) :
    RegistryOf server (.initial maxClient actionFrequency) where
  distinct := List.nodup_nil
  occupied := fun _ _ hi => absurd hi (not_connected_replicate hserver)
  present := by simp [ManagerState.initial]
  passedOn := atEach_nil

end Runs

/-! ### A slot and a device that are used twice -/

end IoTRepublic
