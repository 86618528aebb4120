import FrontendAssets.Proofs.App.Reach
import FrontendAssets.Proofs.Request.Target
import FrontendAssets.Proofs.Url.Lengths

/-!
# `FrontendAssets.Proofs.App.Mount`: mounts that requests reach

A configuration takes every single segment for its mount, and a request is compared with the mount
twice: once as it was written, and once in its clean form. A server that passes on nothing but the
decoded path leaves the escaping to the application, so what the mount is compared with at first is
an escaped path. A mount with something to escape is not found there, since the escaped segment has
more characters than the mount. In between the target is taken apart as an address, and a mount that
begins like a scheme with its colon is cut in two. `handle_mounts_iff` says that these are the only
ways to fail: the resources under all other mounts are served.

The clean path of a target with a scheme is not computed here. It is enough that it is no longer
than what the scheme leaves (`Request.length_cleanPath_le`) and still ends in the name.
-/

set_option autoImplicit false

namespace FrontendAssets.App

open Text (join)
open Reference (IsScheme withQuery)

variable {w : Resolve.World} {a : Setup} {c : Config} {s : Scope} {mount name path query : Text}

/-! ### Mounts and names -/

/-- Whether a segment stands in addresses as it is: nothing in it is escaped, and no scheme ends at
a colon in it. -/
structure ShowsInAddresses (mount : Text) : Prop where
  /-- Escaping leaves it as it is. -/
  encode_eq : Percent.encode HttpScope.pathSafe mount = mount
  /-- What stands in front of a colon in it is no scheme. -/
  not_isScheme : ∀ scheme rest, mount = scheme ++ ':' :: rest → ¬ IsScheme scheme

section Letters

variable (hletters : ∀ d ∈ name, d.isAlpha = true)

include hletters

/-- Letters are unreserved. -/
theorem isUnreserved_of_letters : ∀ d ∈ name, Percent.isUnreserved d = true := by
  intro d hd
  simp [Percent.isUnreserved, Char.isAlphanum, hletters d hd]

/-- Nothing but letters is in such a name. -/
theorem not_mem_of_letters {d : Char} (hd : d.isAlpha = false) : d ∉ name := by
  intro hm
  rw [hletters d hm] at hd
  cases hd

/-- Letters need no escapes. -/
theorem encode_of_letters : Percent.encode HttpScope.pathSafe name = name :=
  Percent.encode_of_isUnreserved _ (isUnreserved_of_letters hletters)

/-- Letters make a clean name, if there is one at all. -/
theorem isCleanName_of_letters (hne : name ≠ []) : Request.IsCleanName name := by
  have hdot : '.' ∉ name := not_mem_of_letters hletters rfl
  refine ⟨hne, ?_, ?_, not_mem_of_letters hletters rfl, not_mem_of_letters hletters rfl⟩
  · exact fun he => hdot (by simp [he])
  · exact fun he => hdot (by simp [he, Path.up])

/-- They have no parameters and are no dot segment. -/
theorem isStable_of_letters : Reference.IsStable name := by
  have hdot : '.' ∉ name := not_mem_of_letters hletters rfl
  rw [Reference.IsStable, Text.cut_of_not_mem (not_mem_of_letters hletters rfl)]
  refine ⟨?_, ?_, by simp⟩
  · exact fun he => hdot (by simp [show name = ['.'] from he])
  · exact fun he => hdot (by simp [show name = ['.', '.'] from he])

end Letters

/-! ### Addresses -/

/-- A GET request of which only the decoded path and the query are known, to an application that is
not mounted anywhere. -/
structure IsDecodedGet (s : Scope) (path : Text) : Prop extends IsGet s path where
  /-- The path was not passed on as it was sent. -/
  rawPath_eq : s.rawPath = none
  /-- There is no root to take off. -/
  rootPath_eq : s.rootPath.getD [] = []

/-- The address of such a request is its path, escaped again, with the query behind it. -/
theorem IsDecodedGet.addressOf_eq (h : IsDecodedGet s path) :
    addressOf s path = .ok (withQuery (Percent.encode HttpScope.pathSafe path)
      (Latin.decode (s.query.getD []))) := by
  have hquery : (httpScope s [] path).withQuery (Percent.encode HttpScope.pathSafe path)
      = withQuery (Percent.encode HttpScope.pathSafe path) (Latin.decode (s.query.getD [])) := by
    by_cases hnone : s.query.getD [] = [] <;>
      simp [HttpScope.withQuery, httpScope, withQuery, Latin.decode, hnone]
  rw [addressOf, HttpScope.requestUrl_eq_withQuery h.rawPath_eq rfl h.rootPath_eq, hquery]

/-- The escaped path of a name under the mount. -/
theorem encode_mountHead_append (c : Config) (hletters : ∀ d ∈ name, d.isAlpha = true) :
    Percent.encode HttpScope.pathSafe (c.mountHead ++ name)
      = Percent.encode HttpScope.pathSafe (Text.trim '/' c.mount) ++ '/' :: name := by
  rw [Config.mountHead, List.append_assoc, List.singleton_append, Percent.encode_append,
    Percent.encode_cons_of_mem HttpScope.slash_mem_pathSafe, encode_of_letters hletters]

section Address

variable (hmount : Request.IsCleanName (Text.trim '/' c.mount))
  (hletters : ∀ d ∈ name, d.isAlpha = true)

include hmount hletters

/-- A query does not change what is compared with the mount, but for the end of the target. So one
tail stands for every query, and the clean path is that of the path alone. -/
theorem exists_nameUnderMount_eq (query : Text) :
    let escaped := Percent.encode HttpScope.pathSafe (Text.trim '/' c.mount)
    let clean := (Request.cleanPath (escaped ++ '/' :: name)).value
    ∃ tail : Text,
      Resolve.nameUnderMount c
          (withQuery (Percent.encode HttpScope.pathSafe ('/' :: (c.mountHead ++ name))) query)
        = if Request.startsWith (escaped ++ '/' :: tail) c.mountHead
            && Request.startsWith clean c.mountHead then some (clean.drop c.mountHead.length)
          else none := by
  intro escaped clean
  have hpath := encode_mountHead_append c hletters
  have hchars : ∀ d ∈ escaped ++ '/' :: name,
      (0x20 < d.toNat ∧ d ≠ '?' ∧ d ≠ '#') ∧ d ≠ '\\' := by
    intro d hd
    rw [← hpath] at hd
    exact HttpScope.plain_of_mem_encode_pathSafe hd
  have hne : escaped ≠ [] := fun he => hmount.ne_nil
    ((Percent.encode_eq_nil_iff HttpScope.percent_not_mem_pathSafe).mp he)
  have hslash : '/' ∉ escaped := Percent.slash_not_mem_encode hmount.slash_not_mem
  have hhead : (escaped ++ '/' :: name).head? ≠ some '/' := by
    obtain ⟨d, more, hescaped⟩ := List.exists_cons_of_ne_nil hne
    rw [hescaped]
    intro he
    have hd : d = '/' := Option.some.inj he
    exact hslash (by simp [hescaped, hd])
  -- From here on there is a target with some query that cannot end its path.
  obtain ⟨kept, hkept, htarget⟩ :=
    Request.exists_target_withQuery_eq (fun d hd => (hchars d hd).1) hhead query
  have hrest : name.head? ≠ some '/' := fun he =>
    not_mem_of_letters hletters rfl (List.mem_of_mem_head? he)
  have haddress : Percent.encode HttpScope.pathSafe ('/' :: (c.mountHead ++ name))
      = '/' :: (escaped ++ '/' :: name) := by
    rw [Percent.encode_cons_of_mem HttpScope.slash_mem_pathSafe, hpath]
  have hquery := Request.cleanPath_withQuery_of_visible hne hslash hrest hchars hkept
  refine ⟨withQuery name kept, ?_⟩
  unfold Resolve.nameUnderMount
  simp only [haddress, htarget, hquery]
  rw [Reference.withQuery_append_cons]

end Address

/-! ### The two comparisons -/

/-- An escaped segment begins with the segment only if nothing is escaped in it: up to its slash it
would have to be no longer than the segment. -/
theorem encode_eq_of_startsWith {tail : Text} (hslash : '/' ∉ mount)
    (h : Request.startsWith (Percent.encode HttpScope.pathSafe mount ++ '/' :: tail)
      (mount ++ ['/']) = true) :
    Percent.encode HttpScope.pathSafe mount = mount := by
  obtain ⟨first, hfirst, htake⟩ := Request.exists_take_eq_of_startsWith hslash h
  generalize hescaped : Percent.encode HttpScope.pathSafe mount = escaped at htake
  have hno : '/' ∉ escaped := hescaped ▸ Percent.slash_not_mem_encode hslash
  -- The segment that was found ends at the first slash, and so does the escaped one.
  have hwhole : escaped ++ '/' :: tail
      = first ++ '/' :: (escaped ++ '/' :: tail).drop (mount ++ ['/']).length := by
    conv =>
      lhs
      rw [← List.take_append_drop (mount ++ ['/']).length (escaped ++ '/' :: tail), htake]
    simp
  have hcut := congrArg (Text.cut '/') hwhole
  rw [Text.cut_append_cons hno, Text.cut_append_cons hfirst] at hcut
  have hsame : escaped = first := (Prod.mk.inj hcut).1
  have hlength : first.length + 1 ≤ mount.length + 1 := by
    have htaken := List.length_take_le (mount ++ ['/']).length (escaped ++ '/' :: tail)
    rw [htake] at htaken
    simpa using htaken
  rw [← hescaped]
  apply Percent.encode_eq_self_of_length_le
  rw [hescaped, hsame]
  omega

/-- A clean path that begins with a segment has more characters than the segment and its slash, and
at least as many as these and its last name together. -/
theorem length_le_of_startsWith {names : List Text} (hnames : ∀ n ∈ names, Request.IsCleanName n)
    (hslash : '/' ∉ mount) (h : Request.startsWith (join '/' names) (mount ++ ['/']) = true) :
    mount.length + 1 < (join '/' names).length
      ∧ mount.length + 1 + (Text.afterLast '/' (join '/' names)).length
        ≤ (join '/' names).length := by
  obtain ⟨first, more, rfl, hmore, htake, hdrop⟩ := Request.exists_eq_cons_of_startsWith
    (fun n hn => (hnames n hn).slash_not_mem) hslash h
  have hrest : join '/' more ≠ [] := by
    rw [ne_eq, Text.join_eq_nil_iff fun n hn => (hnames n (List.mem_cons_of_mem _ hn)).ne_nil]
    exact hmore
  have hafter : Text.afterLast '/' (join '/' (first :: more))
      = Text.afterLast '/' (join '/' more) := by
    rw [Text.join_cons first hmore, Text.afterLast_append_cons_self]
  -- The rest behind the first name ends in the last one, so it is at least as long.
  have hlast := congrArg List.length (Text.through_append_after '/' (join '/' more))
  have hlength := congrArg List.length hdrop
  have hpositive := List.length_pos_iff.mpr hrest
  rw [List.length_append] at hlast
  rw [List.length_drop, List.length_append, List.length_singleton] at hlength
  rw [hafter]
  omega

/-- A clean path has no more characters than its target has behind the scheme. With a scheme of at
least one letter and a colon, this is too few for a mount in front of the name. -/
theorem length_cleanPath_le_of_visible (h : ∀ d ∈ path, 0x20 < d.toNat ∧ d ≠ '\\') :
    (Request.cleanPath path).value.length ≤ (Reference.cutScheme path).2.length := by
  have hlength := Request.length_cleanPath_le path
  rw [Text.exchange_of_not_mem fun hm => (h _ hm).2 rfl,
    Reference.visible_eq fun d hd => (h d hd).1] at hlength
  exact hlength

/-- A name of letters at the end of a target is at the end of its clean path. -/
theorem afterLast_cleanPath_of_letters (hletters : ∀ d ∈ name, d.isAlpha = true) (hname : name ≠ [])
    (h : ∀ d ∈ mount ++ '/' :: name, (0x20 < d.toNat ∧ d ≠ '?' ∧ d ≠ '#') ∧ d ≠ '\\') :
    (Request.cleanPath (mount ++ '/' :: name)).value = []
      ∨ Text.afterLast '/' (Request.cleanPath (mount ++ '/' :: name)).value = name := by
  have hdecode : Percent.decode name = name := by
    conv => lhs; rw [← encode_of_letters hletters]
    exact Percent.decode_encode HttpScope.percent_not_mem_pathSafe name
  have hcases := Request.afterLast_cleanPath
    (fun d hd => ⟨Reference.isBreak_of_lt (h d hd).1.1, (h d hd).1.2.2⟩)
    (List.forall_mem_nil _) (fun hm => (h _ hm).1.2.1 rfl)
    (Text.exchange_of_not_mem fun hm => (h _ hm).2 rfl)
    (not_mem_of_letters hletters rfl) (isStable_of_letters hletters)
    (hdecode.symm ▸ isCleanName_of_letters hletters hname)
  rw [hdecode] at hcases
  exact hcases

section Comparisons

variable (hmount : Request.IsCleanName (Text.trim '/' c.mount))
  (hletters : ∀ d ∈ name, d.isAlpha = true)

include hmount hletters

/-- What is kept under the mount has a name, and its mount shows in addresses. The first comparison
says that nothing in it is escaped, the second one that no scheme ends in it: otherwise the clean
path would be too short. -/
theorem showsInAddresses_of_startsWith {tail : Text}
    (htarget : Request.startsWith
      (Percent.encode HttpScope.pathSafe (Text.trim '/' c.mount) ++ '/' :: tail) c.mountHead = true)
    (hclean : Request.startsWith (Request.cleanPath
      (Percent.encode HttpScope.pathSafe (Text.trim '/' c.mount) ++ '/' :: name)).value
      c.mountHead = true) :
    name ≠ [] ∧ ShowsInAddresses (Text.trim '/' c.mount) := by
  have hslash := hmount.slash_not_mem
  have hpath := encode_mountHead_append c hletters
  unfold Config.mountHead at htarget hclean
  generalize Text.trim '/' c.mount = mount at *
  have hencode : Percent.encode HttpScope.pathSafe mount = mount :=
    encode_eq_of_startsWith hslash htarget
  rw [hencode] at hclean hpath
  have hchars : ∀ d ∈ mount ++ '/' :: name, (0x20 < d.toNat ∧ d ≠ '?' ∧ d ≠ '#') ∧ d ≠ '\\' := by
    intro d hd
    rw [← hpath] at hd
    exact HttpScope.plain_of_mem_encode_pathSafe hd
  obtain ⟨names, hnames, hjoin⟩ := Request.exists_cleanPath_eq (mount ++ '/' :: name)
  rw [hjoin] at hclean
  obtain ⟨hlower, hlast⟩ := length_le_of_startsWith hnames hslash hclean
  rw [← hjoin] at hlower hlast
  have hupper := length_cleanPath_le_of_visible fun d hd => ⟨(hchars d hd).1.1, (hchars d hd).2⟩
  have hname : name ≠ [] := by
    rintro rfl
    have hwhole := (Reference.cutScheme_suffix (mount ++ ['/'])).length_le
    rw [List.length_append, List.length_singleton] at hwhole
    omega
  refine ⟨hname, hencode, fun scheme rest hscheme hisScheme => ?_⟩
  -- The name is still at the end of what is left, so the mount is not.
  have hbehind : (Reference.cutScheme (mount ++ '/' :: name)).2 = rest ++ '/' :: name := by
    rw [hscheme, List.append_assoc, List.cons_append, Reference.cutScheme_of_isScheme hisScheme]
  rw [hbehind, List.length_append, List.length_cons] at hupper
  have hlength := congrArg List.length hscheme
  rw [List.length_append, List.length_cons] at hlength
  rcases afterLast_cleanPath_of_letters hletters hname hchars with hnil | hend
  · rw [hnil, List.length_nil] at hlower
    omega
  · rw [hend] at hlast
    omega

/-- A name under a mount that shows in addresses is kept. -/
theorem startsWith_of_showsInAddresses (hshows : ShowsInAddresses (Text.trim '/' c.mount))
    (hname : name ≠ []) (tail : Text) :
    let escaped := Percent.encode HttpScope.pathSafe (Text.trim '/' c.mount)
    Request.startsWith (escaped ++ '/' :: tail) c.mountHead = true
      ∧ (Request.cleanPath (escaped ++ '/' :: name)).value = c.mountHead ++ name := by
  intro escaped
  have hpath := encode_mountHead_append c hletters
  have hclean := isCleanName_of_letters hletters hname
  have hhead : c.mountHead ++ name = join '/' ([Text.trim '/' c.mount] ++ [name]) := by
    rw [Config.mountHead, List.append_assoc]
    rfl
  have hescaped : escaped = Text.trim '/' c.mount := hshows.encode_eq
  constructor
  · rw [hescaped, List.append_cons, ← Config.mountHead]
    exact Resolve.startsWith_append _ _
  · have hscheme : Reference.cutScheme (escaped ++ '/' :: name) = ([], escaped ++ '/' :: name) := by
      rw [hescaped]
      by_cases hcolon : ':' ∈ Text.trim '/' c.mount
      · obtain ⟨scheme, rest, hmountEq, hfirst⟩ := List.eq_append_cons_of_mem hcolon
        rw [hmountEq, List.append_assoc, List.cons_append]
        exact Reference.cutScheme_of_not_isScheme hfirst (hshows.not_isScheme _ _ hmountEq) _
      · exact Reference.cutScheme_of_slash hcolon name
    -- Without a scheme the target is a path of plain segments and a stable one, which resolving
    -- keeps.
    rw [← hpath, hhead] at hscheme ⊢
    have hmounts : ∀ n ∈ [Text.trim '/' c.mount], Request.IsCleanName n :=
      List.forall_mem_singleton.mpr hmount
    rw [HttpScope.cleanPath_encode_pathSafe_of_cutScheme hmounts hclean hscheme,
      Reference.resolvedPath_of_isStable (isStable_of_letters hletters)]
    exact Request.removeDotSegments_join
      (List.forall_mem_append.mpr ⟨hmounts, List.forall_mem_singleton.mpr hclean⟩)

end Comparisons

/-! ### Resources under a mount -/

/-- Behind a server that passes on decoded paths, a resource whose name has letters only is served
with its bytes exactly if its mount shows in addresses. A resource without a name is not served. -/
theorem handle_mounts_iff {content : Bytes} (hoverride : a.config.override = .none)
    (hmount : Request.IsCleanName (Text.trim '/' a.config.mount))
    (hletters : ∀ d ∈ name, d.isAlpha = true)
    (hget : IsDecodedGet s ('/' :: (a.config.mountHead ++ name)))
    (hfound : w.bundle.lookup name = some content) (inbox : List LooseText) :
    Serves ((handle a s inbox).run (answer w)) content
      ↔ name ≠ [] ∧ ShowsInAddresses (Text.trim '/' a.config.mount) := by
  obtain ⟨tail, hunder⟩ :=
    exists_nameUnderMount_eq hmount hletters (Latin.decode (s.query.getD []))
  -- Served is what is found under the name that is left, so the two comparisons decide.
  rw [serves_iff_lookup hoverride hget.toIsGet hget.addressOf_eq, hunder]
  constructor
  · rintro ⟨found, hkept, -⟩
    split at hkept
    · rename_i hstarts
      rw [Bool.and_eq_true] at hstarts
      exact showsInAddresses_of_startsWith hmount hletters hstarts.1 hstarts.2
    · cases hkept
  · rintro ⟨hname, hshows⟩
    obtain ⟨htarget, hclean⟩ :=
      startsWith_of_showsInAddresses hmount hletters hshows hname tail
    refine ⟨name, ?_, hfound⟩
    rw [htarget, hclean, Resolve.startsWith_append]
    simp

/-- Marks that need no escapes, and a colon behind something that is no scheme, do a mount no
harm. -/
theorem handle_mounts_marks :
    let config : Config := ⟨none, "/1:b;c@d/".toList, 10, by decide, by decide, by decide⟩
    let name := "main".toList
    let path := '/' :: (config.mountHead ++ name)
    let s : Scope :=
      { type := some "http".toList, method := some "GET".toList, path := some path
        query := some (Utf8.encode "v=1#/..".toList) }
    let w : Resolve.World := ⟨⟨[(name, [7])]⟩, .bare []⟩
    config.override = .none ∧ Request.IsCleanName (Text.trim '/' config.mount)
      ∧ (∀ d ∈ name, d.isAlpha = true) ∧ IsDecodedGet s path
      ∧ w.bundle.lookup name = some [7]
      ∧ Serves ((handle ⟨config, false⟩ s []).run (answer w)) [7] := by
  intro config name path s w
  have htrim : Text.trim '/' config.mount = "1:b;c@d".toList := by decide
  have hmount : Request.IsCleanName (Text.trim '/' config.mount) := by
    rw [htrim]
    constructor <;> decide
  have hletters : ∀ d ∈ name, d.isAlpha = true := List.all_eq_true.mp rfl
  have hget : IsDecodedGet s path := ⟨⟨rfl, rfl, rfl⟩, rfl, rfl⟩
  have hfound : w.bundle.lookup name = some [7] := by decide
  have hshows : ShowsInAddresses (Text.trim '/' config.mount) := by
    rw [htrim]
    refine ⟨by decide, ?_⟩
    rintro scheme rest hscheme ⟨letter, more, rfl, hletter, -⟩
    -- A scheme would begin with the digit.
    have hdigit : '1' = letter := (List.cons.inj hscheme).1
    rw [← hdigit] at hletter
    exact absurd hletter (by decide)
  have hserves := (handle_mounts_iff (a := ⟨config, false⟩) rfl hmount hletters hget hfound []).mpr
    ⟨by decide, hshows⟩
  exact ⟨rfl, hmount, hletters, hget, hfound, hserves⟩

/-- Under a mount with a space nothing is found: the bundle is not even asked, and the request gets
the plain 404. -/
theorem handle_mounts_misses_space :
    let config : Config := ⟨none, "my app".toList, 10, by decide, by decide, by decide⟩
    let name := "main".toList
    let path := '/' :: (config.mountHead ++ name)
    let s : Scope :=
      { type := some "http".toList, method := some "GET".toList, path := some path }
    let w : Resolve.World := ⟨⟨[(name, [65])]⟩, .bare []⟩
    let run := (handle ⟨config, false⟩ s []).run (answer w)
    Config.make none "my app".toList 10 = .ok { value := config } ∧ config.override = .none
      ∧ Request.IsCleanName (Text.trim '/' config.mount) ∧ (∀ d ∈ name, d.isAlpha = true)
      ∧ IsDecodedGet s path ∧ w.bundle.lookup name = some [65]
      ∧ Resolve.lookups (resolving run.asked) = [] ∧ ¬ Serves run [65] := by
  intro config name path s w run
  have hmount : Request.IsCleanName (Text.trim '/' config.mount) := by
    have htrim : Text.trim '/' config.mount = "my app".toList := by decide
    rw [htrim]
    constructor <;> decide
  have hlookups : Resolve.lookups (resolving run.asked) = [] := by decide +kernel
  have hsent : Session.replies run.asked
      = [.message (.start 404
          [(Response.ascii "content-type".toList, Response.ascii "text/plain".toList),
            (Response.ascii "content-length".toList, Response.ascii "9".toList)]),
        .message (.body (Utf8.encode "Not Found".toList))] := by decide +kernel
  refine ⟨rfl, rfl, hmount, List.all_eq_true.mp rfl, ⟨⟨rfl, rfl, rfl⟩, rfl, rfl⟩, by decide,
    hlookups, ?_⟩
  -- The messages that were sent have another status.
  rintro ⟨headers, -, hserved⟩
  have hmessages := hsent.symm.trans hserved
  simp at hmessages

end FrontendAssets.App
