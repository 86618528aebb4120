import FrontendAssets.App.Query
import FrontendAssets.Resolve.Strategy

/-!
# `FrontendAssets.App.Handle`: a connection from its scope to its answer

A GET or HEAD request that the router handles is answered. Everything else falls through to another
application, if there is one. Without one, an HTTP request gets a plain 404, the lifespan of the
server is acknowledged message by message until it shuts down, and other connections are ignored.

A GET or HEAD request without an address fails here, before the router is asked. For other methods
the address is never made, so what their scopes hold does not matter.
-/

set_option autoImplicit false

namespace FrontendAssets.App

/-- An application: a router's configuration, and whether another application stands behind it.
Which application that is makes no difference here, since it is only ever handed the connection. -/
structure Setup where
  config : Config
  fallback : Bool
  deriving DecidableEq

/-- Send a response, its body only if `head` does not leave it out. The start is the same either
way, the length in it included. -/
def sendResponse (r : Response) (head : Bool) : Steps Unit := do
  -- All that can fail comes before the first message.
  let sent ← orFail .unencodable r.encoded
  send (.start r.status sent.headers)
  send (.body (if head then [] else sent.body))
  note (.sent r.status sent.body.length)

/-- Let another application answer, or answer that nothing was found. The answer has its body
whatever the method is. -/
def fallThrough (a : Setup) (s : Scope) : Steps Unit :=
  if a.fallback then forward s else sendResponse .notFound false

/-- Acknowledge the messages of a server's lifespan up to its shutdown. Messages of other types are
taken and passed over, and what waits behind the shutdown is left there. When no message is left
before that, the connection fails. -/
def lifespan : List LooseText → Steps Unit
  | [] => .failed .noMoreMessages
  | message :: more => do
    receive
    if message = "lifespan.startup".toList then
      send .startupComplete
      lifespan more
    else if message = "lifespan.shutdown".toList then send .shutdownComplete
    else lifespan more

/-- Handle a connection that is no HTTP request. Without another application only the lifespan gets
an answer. -/
def handleOther (a : Setup) (s : Scope) (type : LooseText) (inbox : List LooseText) :
    Steps Unit :=
  if a.fallback then forward s
  else if type = "lifespan".toList then lifespan inbox
  else .done ()

/-- Answer a GET or HEAD request. The request is resolved, and if it is none of the frontend's it
falls through as if it had another method. -/
def answerRequest (a : Setup) (s : Scope) (http : HttpScope) : Steps Unit := do
  let url ← orFail .unencodable http.requestUrl
  let resolution ← consult (Resolve.resolve a.config url)
  if resolution.handled then
    let response := Response.ofResolution resolution
    -- One of the two methods it is.
    let head := http.method == "HEAD".toList
    let method := if head then "HEAD".toList else "GET".toList
    note (.answered method url resolution.outcome.name response.status)
    sendResponse response head
  else fallThrough a s

/-- Handle a connection; `inbox` holds the types of the messages that wait on it. The scope is read
in full for every HTTP request, whatever its method, so a missing path matters to these and to no
other connection. -/
def handle (a : Setup) (s : Scope) (inbox : List LooseText) : Steps Unit := do
  let type ← orFail .missingKey (HttpScope.require "type" s.type)
  if type = "http".toList then
    let http ← orFail .missingKey (HttpScope.ofScope s)
    if http.method = "GET".toList ∨ http.method = "HEAD".toList then answerRequest a s http
    else fallThrough a s
  else handleOther a s type inbox

end FrontendAssets.App
