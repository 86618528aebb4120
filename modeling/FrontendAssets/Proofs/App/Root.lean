import FrontendAssets.Proofs.App.Reach
import FrontendAssets.Proofs.App.Responder
import FrontendAssets.Proofs.Http.Root

/-!
# `FrontendAssets.Proofs.App.Root`: requests outside of a mounted application

A request whose path is neither the root of an application nor beneath it is none of the
application's business, and should fare as if there were no root at all. It does so exactly if the
root is not taken off its path (`addressOf_outside_iff`). A root that ends in the middle of a
segment is taken off like any other one, and what is left of the path may well be the name of a
resource: `handle_serves_outside` is such a request.
-/

set_option autoImplicit false

namespace FrontendAssets.App

open HttpScope (IsTakenOff)

variable {root path : Text} {s : Scope} {c : Config} {w : Resolve.World}

/-- A path that is neither the root of an application nor beneath it; the root ends in no slash. -/
structure IsOutside (root path : Text) : Prop where
  /-- There is a root. -/
  root_ne_nil : root ≠ []
  /-- It ends in the middle of a segment, or at the end of one. -/
  root_open : root.getLast? ≠ some '/'
  /-- The path is not the root. -/
  ne_root : path ≠ root
  /-- Nor does it go on behind the root with a slash. -/
  not_beneath : ¬ root ++ ['/'] <+: path

/-- The same connection with a decoded path and a root, of which no raw path was sent. -/
def decodedAt (s : Scope) (root path : Text) : Scope :=
  { s with path := some path, rawPath := none, rootPath := some root }

/-- Which connections fall through depends on nothing but their addresses, if path and root are all
that changes: type and method are the same, and so is what the router makes of the address. -/
theorem fallsThrough_of_addressOf_eq {other : Text}
    (h : addressOf (decodedAt s root path) path = addressOf (decodedAt s other path) path)
    (hfalls : FallsThrough c w (decodedAt s other path)) :
    FallsThrough c w (decodedAt s root path) := by
  cases hfalls with
  | other htype hother => exact .other htype hother
  | method htype hmethod hother => exact .method htype hmethod hother
  | unhandled htype hpath hurl hr hno =>
      obtain rfl := Option.some.inj hpath
      rw [← h] at hurl
      exact .unhandled htype rfl hurl hr hno

/-- Outside of an application a path has the address that it would have without a root exactly if
the root is not taken off, and then nothing that would fall through without a root is handled. -/
theorem addressOf_outside_iff (h : IsOutside root path) (s : Scope) :
    (addressOf (decodedAt s root path) path = addressOf (decodedAt s [] path) path
        ↔ ¬ IsTakenOff root path)
      ∧ (¬ IsTakenOff root path → ∀ (c : Config) (w : Resolve.World),
        FallsThrough c w (decodedAt s [] path) → FallsThrough c w (decodedAt s root path)) := by
  have haddress : addressOf (decodedAt s root path) path = addressOf (decodedAt s [] path) path
      ↔ ¬ IsTakenOff root path :=
    HttpScope.requestUrl_eq_iff_not_isTakenOff (s := httpScope s [] path) h.root_ne_nil h.ne_root
  exact ⟨haddress, fun hoff _ _ => fallsThrough_of_addressOf_eq (haddress.mpr hoff)⟩

/-- A path with another first segment, which the root does not begin, is left alone. -/
theorem addressOf_outside_sibling :
    let root : Text := "/app".toList
    let path : Text := "/other/bundled/main.js".toList
    let s : Scope := { type := some "http".toList, method := some "GET".toList }
    IsOutside root path ∧ ¬ IsTakenOff root path
      ∧ addressOf (decodedAt s root path) path = addressOf (decodedAt s [] path) path := by
  intro root path s
  have hout : IsOutside root path := ⟨by decide, by decide, by decide, by decide⟩
  have hoff : ¬ IsTakenOff root path := by decide
  exact ⟨hout, hoff, (addressOf_outside_iff hout s).1.mpr hoff⟩

/-- A path that goes on behind the root in the middle of a segment is served, although it falls
through without the root. -/
theorem handle_serves_outside :
    let root : Text := "/app".toList
    let path : Text := "/appbundled/x".toList
    let s : Scope := { type := some "http".toList, method := some "GET".toList }
    let w : Resolve.World := ⟨⟨[("x".toList, [65])]⟩, .bare []⟩
    IsOutside root path ∧ IsTakenOff root path
      ∧ addressOf (decodedAt s root path) path = .ok "bundled/x".toList
      ∧ addressOf (decodedAt s [] path) path = .ok path
      ∧ FallsThrough Config.default w (decodedAt s [] path)
      ∧ Serves ((handle ⟨Config.default, false⟩ (decodedAt s root path) []).run (answer w))
        [65] := by
  intro root path s w
  have hout : IsOutside root path := ⟨by decide, by decide, by decide, by decide⟩
  have hinside : addressOf (decodedAt s root path) path = .ok "bundled/x".toList := rfl
  have haddress : addressOf (decodedAt s [] path) path = .ok path := rfl
  have hfalls : FallsThrough Config.default w (decodedAt s [] path) := by
    refine .unhandled (r := ⟨.unhandled, none, MediaType.ofUrl path, []⟩) rfl rfl haddress ?_ rfl
    decide +kernel
  have hserves : Serves ((handle ⟨Config.default, false⟩ (decodedAt s root path) []).run (answer w))
      [65] := by
    have hget : IsGet (decodedAt s root path) path := ⟨rfl, rfl, rfl⟩
    rw [serves_iff_lookup rfl hget hinside]
    exact ⟨"x".toList, by decide +kernel, by decide⟩
  exact ⟨hout, by decide, hinside, haddress, hfalls, hserves⟩

end FrontendAssets.App
