import IoTRepublic.Broker.ReceiveLoops
import IoTRepublic.IoT.Command

/-!
# IoTRepublic.Broker.FakeBroker

`Broker/FakeBroker.cpp`: the broker that plays the devices.

A read request is answered with a random number, any other command with `OK`. The answer
has the ID of the command and goes back where the package came from.

The values are drawn by `rand`, which is a parameter here: the `k`-th call returns
`rand k`. What the devices see of the broker is what the manager sees of any device, so
the loop is the other end of the rules in `Ruler`.
-/

namespace IoTRepublic

open Cpp

namespace FakeBroker

/-- What the loop has drawn and sent so far: how often `rand` was called, and the answers
in the order in which they went out. -/
structure Answering where
  /-- How often `rand` has been called. -/
  drawn : Nat := 0
  sent : List IoTPackage := []
  deriving DecidableEq, Repr

variable (J : Jansson)

/-- `responseCmd` with this value, and `responsePackage`: the addresses of the command are
exchanged, so that the answer goes back to whoever asked. -/
def respond (packageFromManager : IoTPackage) (id value : Text) : Except Fault IoTPackage := do
  let responseCmd ← IoTCommand.ofValues J .readResponse id value
  IoTPackage.ofStringDefault packageFromManager.desIp packageFromManager.sorIp
    responseCmd.sendedData

/-- `value_int`, where `rand` is the `k`-th time it is called. -/
def valueInt (rand : Nat → Nat) (k : Nat) : Text := showInt (rand k % 100 : Nat)

/-- The body of the loop. A command type that was never set must not be compared. -/
def answer (rand : Nat → Nat) (packageFromManager : IoTPackage) (s : Answering) :
    Except Fault Answering := do
  let recvCmd ← IoTCommand.ofContent J packageFromManager.dataVector
  match recvCmd.cmdType with
  | some .readRequest =>
    let responsePackage ← respond J packageFromManager recvCmd.id (valueInt rand s.drawn)
    return { drawn := s.drawn + 1, sent := s.sent ++ [responsePackage] }
  | some _ =>
    let responsePackage ← respond J packageFromManager recvCmd.id (lit "OK")
    return { s with sent := s.sent ++ [responsePackage] }
  | none => .error .undefinedBehaviour

/-- `loop`, one round for each chunk that arrives, from an empty buffer and before the
first call of `rand`. -/
def serve (rand : Nat → Nat) (rounds : List Received) : Except Fault (ReceiveState Answering) :=
  ReceiveLoop.fakeBroker.runRounds (answer J rand) {} rounds

end FakeBroker

end IoTRepublic
