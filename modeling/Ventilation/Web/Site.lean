import Ventilation.Settings
import Ventilation.Web.Files

namespace Ventilation
namespace Web

/-!
# The site

Clients connect at one place, a second one tells that the server is there, and
everything else is a file if files are served at all.  Anyone may ask from
anywhere: a question about what is permitted is answered before anything else.
-/

/-- What is served. -/
structure Site where
  settings : Settings
  files : Option Files
  deriving Repr

/-- What comes of a request: an answer, or a connection of an origin. -/
inductive Outcome
  | answer (response : Response)
  | connect (origin : Origin)
  deriving DecidableEq, Repr

namespace Request

def headerIs (request : Request) (name value : String) : Bool :=
  (request.header? name).any fun given => given.toLower = value

/-- Whether a header speaks of a value, in whatever case. -/
def headerSays (request : Request) (name value : String) : Bool :=
  (request.header? name).any fun given => occurs value.toList given.toLower.toList

/-- Whether a request asks for a connection in the way that is understood. -/
def asksToConnect (request : Request) : Bool :=
  request.headerSays "connection" "upgrade" && request.headerIs "upgrade" "websocket"
    && (request.header? "sec-websocket-key").isSome
    && request.headerIs "sec-websocket-version" "13"

/-- A well-formed request for a connection. -/
def toConnect (target : String) : Request :=
  ⟨"GET", target, [("connection", "Upgrade"), ("upgrade", "websocket"),
    ("sec-websocket-key", "dGhlIHNhbXBsZSBub25jZQ=="), ("sec-websocket-version", "13")]⟩

end Request

namespace Site

/-- The answer at the place where clients connect.  Only a line that stays open
can become a connection. -/
def socket (site : Site) (request : Request) (staysOpen : Bool) : Outcome :=
  if request.method ≠ "GET" then .answer (.bare 405)
  else if !request.asksToConnect then .answer (.bare 400)
  else if !staysOpen then .answer (.bare 426)
  else match single? "token".toList request.query with
    | none => .answer (.bare 400)
    | some token => .connect (site.settings.originOf token)

def health (request : Request) : Response :=
  if request.method = "GET" then ⟨200, "OK"⟩
  else if request.method = "HEAD" then .bare 200
  else .bare 405

def handle (site : Site) (request : Request) (staysOpen : Bool) : Outcome :=
  if request.method = "OPTIONS" then .answer (.bare 200)
  else if request.path = "/sock".toList then site.socket request staysOpen
  else if request.path = "/health".toList then .answer (health request)
  else match site.files with
    | some files => .answer (files.answer request)
    | none => .answer (.bare 404)

end Site
end Web
end Ventilation
