import FrontendAssets.Text.Hex
import FrontendAssets.Text.Quoted

/-!
# `FrontendAssets.Url.Host`: hosts in square brackets

A host in brackets is an IPv6 address, or an address of a future version, marked by a leading `v`.
The test for IPv4 serves twice: for the last two groups of an IPv6 address, and to tell a reader
that an IPv4 address needs no brackets.
-/

set_option autoImplicit false

namespace FrontendAssets.Host

/-- What is wrong with a host in brackets. An IPv4 address has a complaint of its own, since without
the brackets it would do. -/
inductive Invalid where
  /-- Marked as an address of a future version, but without its parts. -/
  | future
  | ipv4
  | noAddress (host : Text)
  deriving DecidableEq, Repr

/-- The complaint for a reader about a host in brackets that is none. -/
def Invalid.message : Invalid → Text
  | .future => "IPvFuture address is invalid".toList
  | .ipv4 => "An IPv4 address cannot be in brackets".toList
  | .noAddress host =>
    Text.quoted host ++ " does not appear to be an IPv4 or IPv6 address".toList

/-- The value of some ASCII decimal digits. Other characters give a number too, and no caller passes
any. -/
def decimalValue (t : Text) : Nat :=
  t.foldl (fun n c => n * 10 + (c.toNat - '0'.toNat)) 0

/-- A number from 0 to 255 in ASCII digits without leading zeros. A leading zero is refused because
some readers take it for an octal number. -/
def isOctet (t : Text) : Bool :=
  !t.isEmpty && t.all Char.isDigit && t.length ≤ 3 && (t == ['0'] || t.head? != some '0')
    && decimalValue t ≤ 255

/-- Four octets with dots between them, and nothing else: neither blanks nor fewer parts. -/
def isIPv4 (t : Text) : Bool :=
  let octets := Text.splitOn '.' t
  octets.length == 4 && octets.all isOctet

/-- One to four hexadecimal digits. Leading zeros are allowed here, as long as they fit. -/
def isGroup (t : Text) : Bool :=
  !t.isEmpty && t.length ≤ 4 && t.all Text.isHexDigit

/-- Write an IPv4 address in the last place as two groups; none if that place holds a dot and no
such address. The groups that stand in for it are zeros, since only their number matters to what
follows. -/
def expandTail (groups : List Text) : Option (List Text) :=
  match groups.getLast? with
  | none => some groups
  | some last =>
    if last.contains '.' then
      if isIPv4 last then some (groups.dropLast ++ [['0'], ['0']]) else none
    else some groups

/-- Forget the empty piece that a double colon at the end of an address leaves. An empty piece among
others is not forgotten, so a single colon at an end is still wrong. -/
def forgetEdge (groups : List Text) : List Text :=
  if groups = [[]] then [] else groups

/-- Eight groups, or fewer around one empty place that stands for the groups left out. The empty
place may be at either end, and it stands for at least one group. -/
def isGroups (groups : List Text) : Bool :=
  let first := groups.take 1
  let middle := (groups.drop 1).dropLast
  let last := groups.drop (groups.length - 1)
  -- A double colon leaves one empty piece in the middle, and one more at the edge it touches.
  match middle.filter List.isEmpty with
  | [] => groups.length == 8 && groups.all isGroup
  | [_] =>
    let before := forgetEdge (first ++ middle.takeWhile fun g => !g.isEmpty)
    let after := forgetEdge ((middle.dropWhile fun g => !g.isEmpty).drop 1 ++ last)
    before.all isGroup && after.all isGroup && before.length + after.length ≤ 7
  | _ => false

/-- An IPv6 address, with a zone after a percent sign if it names one. A zone may be any text
without another percent sign, but not empty. -/
def isIPv6 (t : Text) : Bool :=
  let (address, zone) := Text.cut '%' t
  let zoneFits := match zone with
    | none => true
    | some zone => !zone.isEmpty && !zone.contains '%'
  let groups := Text.splitOn ':' address
  zoneFits && 3 ≤ groups.length &&
    match expandTail groups with
    | none => false
    | some groups => isGroups groups

/-- After the `v`: a version in hexadecimal, a dot, and something more. What the something is, is
not looked at. -/
def isFutureVersion (t : Text) : Bool :=
  !(t.takeWhile Text.isHexDigit).isEmpty &&
    match t.dropWhile Text.isHexDigit with
    | '.' :: _ :: _ => true
    | _ => false

/-- Accept what may stand between the brackets of a host. Only a small `v` marks an address of a
future version. -/
def checkBracketed : Text → Except Invalid Unit
  | 'v' :: rest => if isFutureVersion rest then .ok () else .error .future
  | host =>
    if isIPv4 host then .error .ipv4
    else if isIPv6 host then .ok ()
    else .error (.noAddress host)

end FrontendAssets.Host
