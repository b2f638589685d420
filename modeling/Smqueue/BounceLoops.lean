import Smqueue.Changes
import Smqueue.Daemon

/-!
# Bounces of bounces

A bounce is a message from the number `Bounce.Code`. A message from that number is not bounced, since
bounces of bounces would make endless loops.
-/

namespace Smqueue

/-- The user in the From header, if there is one, is the given number. -/
def SipMessage.SentBy (code : CString) (p : SipMessage) : Prop :=
  ∀ f u, p.fromHeader = some f → f.url = some u → u.username = some code

/-- What the program relies on in the osip library to know its own bounces: a printed message that is
parsed has the sender that it was printed with, and a text does not become an encoded message. -/
structure Libs.KeepsSender (lib : Libs) (code : CString) : Prop where
  /-- The From line of a message that is originated with this sender. -/
  line : ∀ ip tag f u, lib.nameAddrParse
    (code ++ str "<sip:" ++ code ++ str "@" ++ ip ++ str ">;tag=" ++ tag) = some f →
      f.url = some u → u.username = some code
  /-- A text of which a length of 16 bits is left. -/
  text : ∀ p p' n, p.SentBy code → n = (lib.messageToStr p).length % 2 ^ 16 →
    lib.messageParse (ShortMsg.buffer ((lib.messageToStr p).take n) n) = some p' →
      p'.SentBy code ∧ (p.contentType = some ⟨some (str "text"), some (str "plain")⟩ →
        p'.contentType ≠ some ⟨some (str "application"), some (str "vnd.3gpp.sms")⟩)

namespace SMq

/-- The pass inserts a message that `bounce_message` originates. -/
def passBounces (lib : Libs) (env : Env) (q : SMq) : Bool :=
  q.timeSortedList.head?.any fun h => h.nextActionTime ≤ env.clock.entry &&
    match h.state with
    | .initialState => respondsTo h.toShortMsg && (q.responseOrigin lib env h).isSome
    | .requestDestinationImsi => (q.lookupOrigin lib env h).isSome
    | _ => false

end SMq

namespace Daemon

/-- Bounces are sent from the given number, for which the registry has no global number. -/
def BouncesAs (code : CString) (_ : Daemon) : DaemonAct → Prop
  | .pass env => env.config.bounceCode = code ∧ env.hlr.mapCLIDGlobal code = none
  | _ => True

/-- In a run in which bounces are sent from the given number, a pass originates the bounce `i`, and
more steps lead to `d`. -/
inductive Bounced (lib : Libs) (code : CString) (i : MsgId) (d : Daemon) : Prop
  | mk {d1 d2 : Daemon} {env : Env}
      (before : Runs.GuardedRun Start (Step lib) (BouncesAs code) d1)
      (hc : BouncesAs code d1 (.pass env)) (hb : d1.queue.passBounces lib env = true)
      (hi : d1.queue.nextId = i) (pass : Step lib d1 (.pass env) d2)
      (after : Runs.GuardedRun (· = d2) (Step lib) (BouncesAs code) d)

/-- The message `i` makes the program originate no message. -/
structure Silent (lib : Libs) (code : CString) (i : MsgId) (d : Daemon) : Prop where
  sender : ∀ m ∈ d.queue.timeSortedList, m.id = i →
    ∃ p, m.parsed = some p ∧ p.fromUsername = .ok (some code)
  /-- It is not bounced when it is answered with an error. -/
  answered : ∀ m ∈ d.queue.timeSortedList, m.id = i → ∀ env, d.BouncesAs code (.pass env) →
    ∀ (q : SMq) errstr, q.bounceMessage lib env m errstr = .ok (.noState, q)
  /-- It is not bounced when it cannot be located. -/
  notLocated : ∀ m ∈ d.queue.timeSortedList, m.id = i → ∀ env, d.BouncesAs code (.pass env) →
    ∀ s next sm, m.toShortMsg.lookupUriImsi lib env s = .ok (next, sm) →
      ∀ (q : SMq) errstr, q.bounceMessage lib env { m with toShortMsg := sm } errstr =
        .ok (.noState, q)
  /-- Nothing is originated in a pass in which it is the head, or is answered. -/
  origin : ∀ h ∈ d.queue.timeSortedList.head?,
    (h.id = i ∨ ∃ response, d.queue.Answers h response i) →
      ∀ env, d.BouncesAs code (.pass env) → d.queue.passOrigin lib env = none

end Daemon

end Smqueue
