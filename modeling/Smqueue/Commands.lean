import Smqueue.Lifecycle

/-!
# How often a command is run

A message that is for a command is run by a pass. With some results the message comes back to the
states in which commands are run: it waits until its sender is registered, or its text names another
recipient. Every other result is the end of the command.
-/

namespace Smqueue

/-- With this result the message may be run as a command again. -/
def ShortCodeAction.runsAgain : ShortCodeAction → Bool
  | awaitRegister | register | restartProcessing => true
  | _ => false

namespace SMq

/-- The message is the due head of the queue and for a command, which a pass runs to its end. -/
def concludes (lib : Libs) (env : Env) (q : SMq) (i : MsgId) : Bool :=
  q.timeSortedList.head?.any fun m =>
    m.id = i && m.nextActionTime ≤ env.clock.entry && m.state = .initialState &&
      !respondsTo m.toShortMsg && methodOf m.toShortMsg = some (str "MESSAGE") &&
      match q.callShortCode lib env m with
      | .ok (some r) => !r.action.runsAgain
      | _ => false

end SMq

namespace Daemon

/-- Whether the step runs the command of the message to its end. -/
def concludes (lib : Libs) (i : MsgId) (d : Daemon) : DaemonAct → Nat
  | .pass env => (d.queue.concludes lib env i).toNat
  | _ => 0

/-- Whether the message may still be run as a command. -/
def mayConclude (i : MsgId) (d : Daemon) : Nat := if (d.stage i).age ≤ 2 then 1 else 0

end Daemon

end Smqueue
