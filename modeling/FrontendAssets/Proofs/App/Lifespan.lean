import FrontendAssets.Proofs.App.Run

/-!
# `FrontendAssets.Proofs.App.Lifespan`: the messages of a server's lifespan

A server tells an application when it starts and when it shuts down, and may tell it other things in
between. `exchange` is what an application without a fallback asks for one message: it takes the
message, and if it is one of these two, it acknowledges it before it takes the next one.

A lifespan is the exchanges of its messages in order. Its loop has two ways out. The first shutdown
ends it well, and what waits behind that message is not taken (`run_lifespan_append_shutdown`).
Without a shutdown every message is taken, and the failure of the connection ends the run
(`run_lifespan_of_not_mem`). How much is taken and what is sent is counted on the exchanges
(`received_exchanges`, `replies_exchanges`).
-/

set_option autoImplicit false

namespace FrontendAssets.App

variable {w : Resolve.World} {a : Setup} {s : Scope} {type : LooseText}
  {inbox before : List LooseText}

/-! ### Exchanges -/

/-- The type of the message that comes when a server starts. -/
def startup : LooseText := "lifespan.startup".toList

/-- The type of the message that comes when a server shuts down. -/
def shutdown : LooseText := "lifespan.shutdown".toList

/-- What is sent back for a message: the two that a server waits for, and nothing for any other. -/
def acknowledgements (message : LooseText) : List Message :=
  if message = startup then [.startupComplete]
  else if message = shutdown then [.shutdownComplete]
  else []

/-- What is asked for a message: to take it, and then to acknowledge it. -/
def exchange (message : LooseText) : List Query := .receive :: (acknowledgements message).map .send

/-- Sending takes no message. -/
theorem received_map_send (messages : List Message) : received (messages.map Query.send) = 0 := by
  induction messages with
  | nil => rfl
  | cons m messages ih => exact ih

/-- What is sent is what the connection gets. -/
theorem replies_map_send (messages : List Message) :
    Session.replies (messages.map Query.send) = messages.map .message := by
  induction messages with
  | nil => rfl
  | cons m messages ih => exact congrArg (Session.Reply.message m :: ·) ih

/-- Each exchange takes one message, so as many are taken as there are exchanges. -/
theorem received_exchanges (messages : List LooseText) :
    received (messages.flatMap exchange) = messages.length := by
  induction messages with
  | nil => rfl
  | cons message messages ih =>
      have hfirst : received (exchange message) = 1 := by
        show received ([.receive] ++ (acknowledgements message).map .send) = 1
        rw [received_append, received_map_send]
        rfl
      rw [List.flatMap_cons, received_append, hfirst, ih, List.length_cons]
      omega

/-- The acknowledgements come in the order of the messages. -/
theorem replies_exchanges (messages : List LooseText) :
    Session.replies (messages.flatMap exchange)
      = (messages.flatMap acknowledgements).map .message := by
  induction messages with
  | nil => rfl
  | cons message messages ih =>
      have hfirst :
          Session.replies (exchange message) = (acknowledgements message).map .message := by
        show Session.replies ([.receive] ++ (acknowledgements message).map .send) = _
        rw [replies_append, replies_map_send]
        rfl
      rw [List.flatMap_cons, List.flatMap_cons, replies_append, hfirst, ih, List.map_append]

/-- Up to the shutdown, only startups are acknowledged. -/
theorem acknowledgements_of_not_mem (h : shutdown ∉ before) :
    before.flatMap acknowledgements
      = List.replicate (before.count startup) Message.startupComplete := by
  induction before with
  | nil => rfl
  | cons message before ih =>
      obtain ⟨hmessage, hbefore⟩ := List.ne_and_not_mem_of_not_mem_cons h
      rw [List.flatMap_cons, ih hbefore, acknowledgements]
      by_cases hstartup : message = startup
      · subst hstartup
        rw [if_pos rfl, List.count_cons_self]
        rfl
      · rw [if_neg hstartup, if_neg hmessage.symm, List.count_cons_of_ne hstartup]
        rfl

/-! ### Lifespans -/

/-- One turn of the loop: a message is taken, and its type decides whether there is a next turn. -/
theorem lifespan_cons (message : LooseText) (more : List LooseText) :
    lifespan (message :: more) = (do
      receive
      if message = startup then do
        send .startupComplete
        lifespan more
      else if message = shutdown then send .shutdownComplete
      else lifespan more) := rfl

/-- A message that is no shutdown has its exchange, and the lifespan goes on. This is the step; the
two lemmas after the next one are the runs. -/
theorem run_lifespan_cons {message : LooseText} (h : message ≠ shutdown) (more : List LooseText) :
    (lifespan (message :: more)).run (answer w)
      = ⟨exchange message ++ ((lifespan more).run (answer w)).asked,
        ((lifespan more).run (answer w)).outcome⟩ := by
  rw [lifespan_cons, exchange, acknowledgements]
  by_cases hstartup : message = startup
  · rw [if_pos hstartup, if_pos hstartup]
    rfl
  · rw [if_neg hstartup, if_neg hstartup, if_neg h, if_neg h]
    rfl

/-- The shutdown has its exchange, and nothing more is taken. -/
theorem run_lifespan_shutdown (unread : List LooseText) :
    (lifespan (shutdown :: unread)).run (answer w) = ⟨exchange shutdown, .ok ()⟩ := rfl

/-- The first shutdown ends a lifespan. The induction is on the messages before it; none of them is
a shutdown, so each has its exchange. -/
theorem run_lifespan_append_shutdown (h : shutdown ∉ before) (unread : List LooseText) :
    (lifespan (before ++ shutdown :: unread)).run (answer w)
      = ⟨(before ++ [shutdown]).flatMap exchange, .ok ()⟩ := by
  induction before with
  | nil => exact run_lifespan_shutdown unread
  | cons message before ih =>
      obtain ⟨hmessage, hbefore⟩ := List.ne_and_not_mem_of_not_mem_cons h
      rw [List.cons_append, run_lifespan_cons hmessage.symm, ih hbefore]
      rfl

/-- Without a shutdown, a lifespan fails as soon as the connection does. Each of its messages has
had its exchange by then. -/
theorem run_lifespan_of_not_mem (h : shutdown ∉ inbox) :
    (lifespan inbox).run (answer w) = ⟨inbox.flatMap exchange, .error .noMoreMessages⟩ := by
  induction inbox with
  | nil => rfl
  | cons message inbox ih =>
      obtain ⟨hmessage, hinbox⟩ := List.ne_and_not_mem_of_not_mem_cons h
      rw [run_lifespan_cons hmessage.symm, ih hinbox]
      rfl

/-! ### Connections -/

/-- Without a fallback, a connection that is no HTTP request is a lifespan or is ignored. The rest
of its scope is not looked at. -/
theorem handle_eq_of_other (hfallback : a.fallback = false) (htype : s.type = some type)
    (h : type ≠ "http".toList) (inbox : List LooseText) :
    handle a s inbox = if type = "lifespan".toList then lifespan inbox else .done () := by
  unfold handle
  rw [htype]
  show (if type = "http".toList then _ else handleOther a s type inbox) = _
  rw [if_neg h, handleOther, if_neg (by simp [hfallback])]

/-- Without a fallback, a lifespan takes its messages up to the first shutdown and leaves the rest,
acknowledges each startup before it takes the next message, acknowledges the shutdown, and ends
well. If no shutdown comes, it takes every message, acknowledges the startups alone, and fails as
the connection does. Any other connection that is no HTTP request takes and sends nothing. -/
theorem handle_acknowledges_lifespan (c : Config) (w : Resolve.World) (s : Scope)
    (inbox : List LooseText) :
    let run := (handle ⟨c, false⟩ s inbox).run (answer w)
    (s.type = some ↑"lifespan".toList →
      (∀ before unread, inbox = before ++ shutdown :: unread → shutdown ∉ before →
        run = ⟨(before ++ [shutdown]).flatMap exchange, .ok ()⟩
          ∧ received run.asked = before.length + 1
          ∧ Session.replies run.asked
            = List.replicate (before.count startup) (.message .startupComplete)
              ++ [.message .shutdownComplete])
      ∧ (shutdown ∉ inbox →
        run = ⟨inbox.flatMap exchange, .error .noMoreMessages⟩
          ∧ received run.asked = inbox.length
          ∧ Session.replies run.asked
            = List.replicate (inbox.count startup) (.message .startupComplete)))
      ∧ ∀ type, s.type = some type → type ≠ "http".toList → type ≠ "lifespan".toList →
        run = ⟨[], .ok ()⟩ := by
  intro run
  refine ⟨fun htype => ?_, fun type htype hhttp hlifespan => ?_⟩
  · have hrun : run = (lifespan inbox).run (answer w) := by
      show (handle ⟨c, false⟩ s inbox).run (answer w) = _
      rw [handle_eq_of_other rfl htype (by decide), if_pos rfl]
    -- What is taken and sent is counted on the run as a whole, which the run lemmas give.
    refine ⟨fun before unread hinbox hbefore => ?_, fun hinbox => ?_⟩
    · have hwhole : run = ⟨(before ++ [shutdown]).flatMap exchange, .ok ()⟩ := by
        rw [hrun, hinbox, run_lifespan_append_shutdown hbefore]
      refine ⟨hwhole, ?_, ?_⟩
      · rw [hwhole, received_exchanges, List.length_append]
        rfl
      · rw [hwhole, replies_exchanges, List.flatMap_append, acknowledgements_of_not_mem hbefore,
          List.map_append, List.map_replicate]
        rfl
    · have hwhole : run = ⟨inbox.flatMap exchange, .error .noMoreMessages⟩ := by
        rw [hrun, run_lifespan_of_not_mem hinbox]
      refine ⟨hwhole, ?_, ?_⟩
      · rw [hwhole, received_exchanges]
      · rw [hwhole, replies_exchanges, acknowledgements_of_not_mem hinbox, List.map_replicate]
  · show (handle ⟨c, false⟩ s inbox).run (answer w) = _
    rw [handle_eq_of_other rfl htype hhttp, if_neg hlifespan]
    rfl

/-- A repeated startup is acknowledged again, and a message of another type is passed over. -/
example :
    Session.replies ((lifespan [startup, "lifespan.other".toList, startup, shutdown, startup]).run
        (answer ⟨.empty, ⟨.empty, []⟩⟩)).asked
      = [.message .startupComplete, .message .startupComplete, .message .shutdownComplete] := by
  decide

end FrontendAssets.App
