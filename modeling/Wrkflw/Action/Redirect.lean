import Mathlib.Data.List.Basic

/-!
# The redirect policy of the default HTTP client

`refuseUnsafeRedirect` (`action/httpcall/redirect.go`) is the `CheckRedirect` of the default client. `net/http` asks it about
each redirect in turn, with the requests made so far; a request is what the policy reads of it, the scheme and the host of
its URL.
-/

namespace Wrkflw

/-! ## URLs -/

/-- `validOptionalPort` of `net/url`. -/
def validOptionalPort : List Char → Bool
  | [] => true
  | c :: cs => c == ':' && cs.all Char.isDigit

/-- What stands before and after the last colon. -/
def splitLastColon : List Char → Option (List Char × List Char)
  | [] => none
  | c :: cs =>
    match splitLastColon cs with
    | some (host, port) => some (c :: host, port)
    | none => if c = ':' then some ([], cs) else none

/-- The host without the brackets of an IPv6 literal. -/
def stripBrackets (host : List Char) : List Char :=
  if host.head? = some '[' ∧ host.getLast? = some ']' then host.tail.dropLast else host

/-- `splitHostPort` of `net/url`. -/
def splitHostPort (hostPort : List Char) : List Char × List Char :=
  match splitLastColon hostPort with
  | some (host, port) =>
    if validOptionalPort (':' :: port) then (stripBrackets host, port) else (stripBrackets hostPort, [])
  | none => (stripBrackets hostPort, [])

structure HttpURL where
  scheme : String
  host : String
  deriving DecidableEq, Repr

/-- `URL.Hostname`. -/
def HttpURL.hostname (u : HttpURL) : String := String.ofList (splitHostPort u.host.toList).1

example : HttpURL.hostname ⟨"https", "[::1]:8443"⟩ = "::1" := by decide

/-! ## The policy -/

def maxRedirects : Nat := 10

/-- `ErrDowngradeRedirect` and `ErrCrossHostRedirect` with the two ends of the hop, and the hop limit. -/
inductive RedirectError where
  | stopped
  | downgrade (origin target : String)
  | crossHost (origin target : String)
  deriving DecidableEq, Repr

def RedirectError.text : RedirectError → String
  | .stopped => "workflow-httpcall: stopped after " ++ toString maxRedirects ++ " redirects"
  | .downgrade origin target =>
    "workflow-httpcall: redirect downgrades https to a plaintext scheme: " ++ origin ++ " -> " ++ target
  | .crossHost origin target => "workflow-httpcall: redirect crosses to a different host: " ++ origin ++ " -> " ++ target

/-- `refuseUnsafeRedirect`; `via` holds the requests made already, the oldest first, and there is one at least. -/
def refuseUnsafeRedirect (req : HttpURL) (via : List HttpURL) (hvia : via ≠ []) : Except RedirectError Unit :=
  if maxRedirects ≤ via.length then .error .stopped
  else if (via.head hvia).scheme = "https" ∧ req.scheme ≠ "https" then
    .error (.downgrade (via.head hvia).scheme req.scheme)
  else if req.hostname ≠ (via.head hvia).hostname then .error (.crossHost (via.head hvia).hostname req.hostname)
  else .ok ()

/-- The client is redirected to each of `targets` in turn: the requests it makes, where it follows them all. -/
def followRedirects (via : List HttpURL) (hvia : via ≠ []) : List HttpURL → Except RedirectError (List HttpURL)
  | [] => .ok via
  | req :: targets =>
    match refuseUnsafeRedirect req via hvia with
    | .error err => .error err
    | .ok () => followRedirects (via ++ [req]) (List.append_ne_nil_of_left_ne_nil hvia [req]) targets

end Wrkflw
