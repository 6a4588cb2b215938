import Outbox.Broker.Message

/-!
# What a response status means for a delivery

The codes that say that the message itself is unacceptable are permanent; every other failure is
taken to be transient. The body is quoted in the reason, cut to a bounded length.
-/

namespace Outbox.Broker

def reasonPhrases : List (Nat × String) :=
  [(100, "Continue"), (101, "Switching Protocols"), (102, "Processing"), (103, "Early Hints"),
    (200, "OK"), (201, "Created"), (202, "Accepted"), (203, "Non Authoritative Information"),
    (204, "No Content"), (205, "Reset Content"), (206, "Partial Content"), (207, "Multi-Status"),
    (208, "Already Reported"), (226, "IM Used"), (300, "Multiple Choices"),
    (301, "Moved Permanently"), (302, "Found"), (303, "See Other"), (304, "Not Modified"),
    (305, "Use Proxy"), (307, "Temporary Redirect"), (308, "Permanent Redirect"),
    (400, "Bad Request"), (401, "Unauthorized"), (402, "Payment Required"), (403, "Forbidden"),
    (404, "Not Found"), (405, "Method Not Allowed"), (406, "Not Acceptable"),
    (407, "Proxy Authentication Required"), (408, "Request Timeout"), (409, "Conflict"),
    (410, "Gone"), (411, "Length Required"), (412, "Precondition Failed"),
    (413, "Payload Too Large"), (414, "URI Too Long"), (415, "Unsupported Media Type"),
    (416, "Range Not Satisfiable"), (417, "Expectation Failed"), (418, "I'm a teapot"),
    (421, "Misdirected Request"), (422, "Unprocessable Entity"), (423, "Locked"),
    (424, "Failed Dependency"), (425, "Too Early"), (426, "Upgrade Required"),
    (428, "Precondition Required"), (429, "Too Many Requests"),
    (431, "Request Header Fields Too Large"), (451, "Unavailable For Legal Reasons"),
    (500, "Internal Server Error"), (501, "Not Implemented"), (502, "Bad Gateway"),
    (503, "Service Unavailable"), (504, "Gateway Timeout"), (505, "HTTP Version Not Supported"),
    (506, "Variant Also Negotiates"), (507, "Insufficient Storage"), (508, "Loop Detected"),
    (510, "Not Extended"), (511, "Network Authentication Required")]

/-- The code of a response, of three digits. -/
structure StatusCode where
  code : Nat
  isValid : 100 ≤ code ∧ code ≤ 999
  deriving DecidableEq

namespace StatusCode

/-- The status of a code of three digits. -/
def ofNat? (n : Nat) : Option StatusCode :=
  if h : 100 ≤ n ∧ n ≤ 999 then some ⟨n, h⟩ else none

/-- The message was accepted. -/
def isSuccess (s : StatusCode) : Bool := 200 ≤ s.code && s.code < 300

/-- The message itself is unacceptable. -/
def isRejection (s : StatusCode) : Bool :=
  s.code = 400 || s.code = 413 || s.code = 415 || s.code = 422

/-- The code with its reason phrase. -/
def text (s : StatusCode) : String :=
  let phrase := (reasonPhrases.lookup s.code).getD "<unknown status code>"
  s!"{s.code} {phrase}"

end StatusCode

/-- How much of a body is quoted, in characters. -/
def quotedBody : Nat := 512

def failureReason (s : StatusCode) (body : String) : String :=
  s!"broker responded {s.text}: {String.ofList (body.toList.take quotedBody)}"

/-- What a response means for the delivery. -/
def classify (s : StatusCode) (body : String) : Delivery :=
  if s.isSuccess then .ok ()
  else if s.isRejection then .error (.permanent (failureReason s body))
  else .error (.retryable (failureReason s body))

end Outbox.Broker
