import FrontendAssets.Proofs.App.Run
import FrontendAssets.Proofs.Http.Address
import FrontendAssets.Proofs.Resolve.Decomposition
import FrontendAssets.Proofs.Resolve.Reach

/-!
# `FrontendAssets.Proofs.App.Reach`: resources that decoded paths name

A server that passes on nothing but the decoded path of a request leaves the escaping to the
application. The path of a resource under the mount then serves this very resource, whatever stands
in its name, unless the last segment of the name is not stable (`handle_reaches_iff`): a semicolon
is not escaped, and the address that is made of the path has parameters behind it. So a semicolon at
the end is lost, and a dot segment in front of one is taken for a dot segment.
`handle_misses_semicolon` is a request that another resource answers.
-/

set_option autoImplicit false

namespace FrontendAssets.App

open Text (join splitOn)

variable {w : Resolve.World} {a : Setup} {c : Config} {s : Scope} {path name : Text}

/-! ### GET requests -/

/-- A GET request for a path. Query, root and raw path may be anything. -/
structure IsGet (s : Scope) (path : Text) : Prop where
  /-- It is an HTTP request. -/
  type_eq : s.type = some ↑"http".toList
  /-- Its method is GET. -/
  method_eq : s.method = some ↑"GET".toList
  /-- This is its path, decoded. -/
  path_eq : s.path = some ↑path

/-- A GET request of which only the decoded path is known, without a query, to an application that
is not mounted anywhere. -/
structure IsPlainGet (s : Scope) (path : Text) : Prop where
  type_eq : s.type = some ↑"http".toList
  method_eq : s.method = some ↑"GET".toList
  path_eq : s.path = some ↑path
  rawPath_eq : s.rawPath = none
  query_eq : s.query.getD [] = []
  rootPath_eq : s.rootPath.getD [] = []

/-- Such a request is a GET request. -/
theorem IsPlainGet.isGet (h : IsPlainGet s path) : IsGet s path :=
  ⟨h.type_eq, h.method_eq, h.path_eq⟩

/-- The address of such a request is its path, escaped again. -/
theorem IsPlainGet.addressOf_eq (h : IsPlainGet s path) :
    addressOf s path = .ok (Percent.encode HttpScope.pathSafe path) := by
  have hquery : (httpScope s [] path).withQuery (Percent.encode HttpScope.pathSafe path)
      = Percent.encode HttpScope.pathSafe path :=
    if_pos h.query_eq
  rw [addressOf, HttpScope.requestUrl_eq_withQuery h.rawPath_eq rfl h.rootPath_eq, hquery]

/-- A run that answers with status 200 and some content. -/
def Serves (run : Run Query Failure Unit) (content : Bytes) : Prop :=
  ∃ headers, Answers run [.start 200 headers, .body content]

/-- What serves is a resource that was found, with its own bytes. No other resolution has a response
with this status. -/
theorem serves_iff {url : Text} (h : IsGet s path) (hurl : addressOf s path = .ok url)
    (inbox : List LooseText) (content : Bytes) :
    Serves ((handle a s inbox).run (answer w)) content
      ↔ ∃ r, ((Resolve.resolve a.config url).run w.answer).outcome = .ok r
        ∧ (r.outcome = .bundled ∨ r.outcome = .file) ∧ r.body.getD [] = content := by
  obtain ⟨r, hr, -, hsent⟩ := exists_resolution_sent w a.config url
  have hget : (httpScope s "GET".toList path).requestUrl = .ok url := hurl
  have hanswers : r.handled = true →
      Answers ((answerRequest a s (httpScope s "GET".toList path)).run (answer w))
        [.start (Response.ofResolution r).status (Response.sentOf r).headers,
          .body (r.body.getD [])] :=
    fun hhandled => answers_of_handled (a := a) hget hr false get_beq_head hhandled hsent
  rw [handle_eq_answerRequest h.type_eq h.method_eq h.path_eq (Or.inl rfl)]
  constructor
  · rintro ⟨others, hserves⟩
    refine ⟨r, hr, ?_⟩
    cases hhandled : r.handled with
    | true =>
        have hmessages := (hanswers hhandled).eq hserves
        simp only [List.cons.injEq, Message.start.injEq, Message.body.injEq, and_true] at hmessages
        obtain ⟨⟨hstatus, -⟩, hbody⟩ := hmessages
        refine ⟨?_, hbody⟩
        rw [Response.status_ofResolution] at hstatus
        split at hstatus
        · assumption
        · cases hstatus
    | false =>
        -- A plain 404 is sent, or nothing at all by the application itself.
        cases hfallback : a.fallback with
        | true =>
            have hover := replies_of_not_handled (s := s) hget hr hfallback hhandled
            exact absurd (hserves.2.symm.trans hover) (by simp)
        | false =>
            have hplain := answers_of_not_handled (s := s) hget hr hfallback hhandled
            have hmessages := hplain.eq hserves
            simp at hmessages
  · rintro ⟨found, hfound, houtcome, rfl⟩
    obtain rfl : found = r := Except.ok.inj (hfound.symm.trans hr)
    have hhandled : found.handled = true := by
      rcases houtcome with he | he <;> simp [Resolution.handled, he]
    refine ⟨(Response.sentOf found).headers, ?_⟩
    have hserved := hanswers hhandled
    rwa [Response.status_ofResolution, if_pos houtcome] at hserved

/-- Without an override, what serves is the resource that the bundle has under the name of the
address. This takes responses and runs out of the way; what is left is a statement about
addresses. -/
theorem serves_iff_lookup {url : Text} (hoverride : a.config.override = .none) (h : IsGet s path)
    (hurl : addressOf s path = .ok url) (inbox : List LooseText) (content : Bytes) :
    Serves ((handle a s inbox).run (answer w)) content
      ↔ ∃ name, Resolve.nameUnderMount a.config url = some name
        ∧ w.bundle.lookup name = some content := by
  rw [serves_iff h hurl]
  cases hunder : Resolve.nameUnderMount a.config url with
  | none =>
      rw [Resolve.run_resolve, hunder]
      constructor
      · rintro ⟨r, hr, houtcome, -⟩
        obtain rfl := (Except.ok.inj hr).symm
        simp at houtcome
      · rintro ⟨name, hname, -⟩
        cases hname
  | some name =>
      -- With a name under the mount the run is one look-up, and its answer decides what is served.
      have hrun := Resolve.run_resolve_of_nameUnderMount w.answer hoverride hunder
      rw [show w.answer (.lookup name) = w.bundle.lookup name from rfl] at hrun
      rw [hrun, Resolve.outcome_afterNotes]
      constructor
      · rintro ⟨r, hr, houtcome, hbody⟩
        refine ⟨name, rfl, ?_⟩
        cases hlookup : w.bundle.lookup name with
        | none =>
            rw [hlookup] at hr
            obtain rfl := (Except.ok.inj hr).symm
            simp at houtcome
        | some found =>
            rw [hlookup] at hr
            obtain rfl := (Except.ok.inj hr).symm
            exact congrArg some hbody
      · rintro ⟨other, hother, hfound⟩
        obtain rfl : name = other := Option.some.inj hother
        rw [hfound]
        exact ⟨_, rfl, Or.inl rfl, rfl⟩

/-! ### Addresses of decoded paths -/

/-- The address of a canonical name leads to this name under the mount exactly if its last segment
is stable. -/
theorem nameUnderMount_encode_pathSafe_iff (hmount : Resolve.HasPlainMount c)
    (hname : Resolve.IsCanonical name) :
    Resolve.nameUnderMount c (Percent.encode HttpScope.pathSafe ('/' :: (c.mountHead ++ name)))
      = some name ↔ Reference.IsStable (Text.afterLast '/' name) := by
  -- Only the last segment can have parameters, so the name is taken apart in front of it.
  obtain ⟨front, last, hsplit⟩ : ∃ front last, splitOn '/' name = front ++ [last] :=
    ⟨_, _, (List.dropLast_concat_getLast (Text.splitOn_ne_nil '/' name)).symm⟩
  have hclean := Resolve.isCleanName_of_mem_mount hmount hname
  have hpath := Resolve.join_mount_splitOn c name
  rw [hsplit, ← List.cons_append] at hclean hpath
  have hlast : Request.IsCleanName last := hclean last (by simp)
  have hafter : Text.afterLast '/' name = last := by
    rw [← Text.join_splitOn '/' name, hsplit, Text.afterLast_join_concat hlast.slash_not_mem]
  have hcolon : ':' ∉ Text.trim '/' c.mount := fun hm =>
    absurd (hmount.isUnreserved _ hm) (by decide)
  have htarget := HttpScope.target_encode_pathSafe hclean
  obtain ⟨hstable, hunstable⟩ := HttpScope.cleanPath_encode_pathSafe_cases
    (fun n hn => hclean n (List.mem_append_left _ hn)) hlast hcolon
  have hstarts : Request.startsWith (Percent.encode HttpScope.pathSafe (c.mountHead ++ name))
      c.mountHead = true := by
    rw [← Resolve.mountHead_append_encode hmount HttpScope.slash_mem_pathSafe]
    exact Resolve.startsWith_append _ _
  -- Escaped, the path under the mount is its own target; whether it is its own clean path is the
  -- question.
  rw [hpath] at htarget hstable hunstable
  rw [hafter]
  unfold Resolve.nameUnderMount
  simp only [htarget, hstarts, Bool.true_and]
  constructor
  · intro h
    apply Decidable.byContradiction
    intro hno
    -- The clean path is shorter than the path, so what is left of it behind the mount is no name.
    have hshorter := hunstable hno
    split at h
    · have hdrop := congrArg List.length (Option.some.inj h)
      have hne : name ≠ [] := by
        rintro rfl
        exact (hname.2 [] (by decide)).1 rfl
      have hlength := List.length_pos_iff.mpr hne
      rw [List.length_drop] at hdrop
      rw [List.length_append] at hshorter
      omega
    · cases h
  · intro h
    rw [hstable h, Resolve.startsWith_append]
    simp

/-- The path of a resource serves this resource, whatever the bundle holds, exactly if the last
segment of its name is stable. A semicolon further ahead does no harm, nor does any other
delimiter. -/
theorem handle_reaches_iff (hoverride : a.config.override = .none)
    (hmount : Resolve.HasPlainMount a.config) (hname : Resolve.IsCanonical name)
    (hget : IsPlainGet s ('/' :: (a.config.mountHead ++ name))) (inbox : List LooseText) :
    (∀ (w : Resolve.World) (content : Bytes), w.bundle.lookup name = some content →
        Serves ((handle a s inbox).run (answer w)) content)
      ↔ Reference.IsStable (Text.afterLast '/' name) := by
  have hserves := fun (w : Resolve.World) (content : Bytes) =>
    serves_iff_lookup (w := w) hoverride hget.isGet hget.addressOf_eq inbox content
  rw [← nameUnderMount_encode_pathSafe_iff hmount hname]
  constructor
  · intro hall
    -- A bundle with nothing but this resource tells whether it is looked up.
    have hfound : (⟨[(name, [])]⟩ : Bundle).lookup name = some [] := by simp [Bundle.lookup]
    obtain ⟨other, hunder, hother⟩ :=
      (hserves _ _).mp (hall ⟨⟨[(name, [])]⟩, .bare []⟩ [] hfound)
    have hsame : other = name := by
      apply Decidable.byContradiction
      intro hne
      have hbeq : (other == name) = false := beq_eq_false_iff_ne.mpr hne
      simp [Bundle.lookup, List.lookup_cons, hbeq] at hother
    rw [hunder, hsame]
  · intro hunder w content hfound
    exact (hserves w content).mpr ⟨name, hunder, hfound⟩

/-- A name with delimiters, one of them in front of parameters, is reached as it stands. -/
theorem handle_reaches_delimiters :
    let name : Text := "a:b@c/d;v=1#?%41 .js".toList
    let path := '/' :: (Config.default.mountHead ++ name)
    let s : Scope :=
      { type := some "http".toList, method := some "GET".toList, path := some path }
    let w : Resolve.World := ⟨⟨[(name, [7])]⟩, .bare []⟩
    Config.default.override = .none ∧ Resolve.HasPlainMount Config.default
      ∧ Resolve.IsCanonical name ∧ IsPlainGet s path ∧ w.bundle.lookup name = some [7]
      ∧ Serves ((handle ⟨Config.default, false⟩ s []).run (answer w)) [7] := by
  intro name path s w
  have hletters : (Text.trim '/' Config.default.mount).all Char.isAlphanum = true := by decide
  have hmount : Resolve.HasPlainMount Config.default := fun d hd =>
    Or.inl (List.all_eq_true.mp hletters d hd)
  have hname : Resolve.IsCanonical name := by
    unfold Resolve.IsCanonical
    decide
  have hget : IsPlainGet s path := ⟨rfl, rfl, rfl, rfl, rfl, rfl⟩
  have hfound : w.bundle.lookup name = some [7] := by decide
  have hstable : Reference.IsStable (Text.afterLast '/' name) := by decide
  have hreaches := handle_reaches_iff (a := ⟨Config.default, false⟩) rfl hmount hname hget []
  exact ⟨rfl, hmount, hname, hget, hfound, hreaches.mpr hstable w [7] hfound⟩

/-- A name that ends in a semicolon is not reached: the resource without it answers. -/
theorem handle_misses_semicolon :
    let name : Text := "main.js;".toList
    let path := '/' :: (Config.default.mountHead ++ name)
    let s : Scope :=
      { type := some "http".toList, method := some "GET".toList, path := some path }
    let w : Resolve.World := ⟨⟨[("main.js".toList, [65]), (name, [66])]⟩, .bare []⟩
    let run := (handle ⟨Config.default, false⟩ s []).run (answer w)
    Resolve.IsCanonical name ∧ IsPlainGet s path ∧ w.bundle.lookup name = some [66]
      ∧ Resolve.lookups (resolving run.asked) = ["main.js".toList]
      ∧ Serves run [65] ∧ ¬ Serves run [66] := by
  intro name path s w run
  have hname : Resolve.IsCanonical name := by
    unfold Resolve.IsCanonical
    decide
  have hget : IsPlainGet s path := ⟨rfl, rfl, rfl, rfl, rfl, rfl⟩
  have hfound : w.bundle.lookup name = some [66] := by decide
  have hlookups : Resolve.lookups (resolving run.asked) = ["main.js".toList] := by decide +kernel
  have hend : run.outcome = .ok () := by decide +kernel
  have hsent : Session.replies run.asked
      = [.message (.start 200
          [(Response.ascii "content-type".toList, Response.ascii "text/html".toList),
            (Response.ascii "cache-control".toList, Response.ascii "no-cache".toList),
            (Response.ascii "content-length".toList, Response.ascii "1".toList)]),
        .message (.body [65])] := by decide +kernel
  have hanswers : Serves run [65] := ⟨_, ⟨(), hend⟩, hsent⟩
  refine ⟨hname, hget, hfound, hlookups, hanswers, ?_⟩
  -- A run answers with one row of messages, and its body is that of the other resource.
  rintro ⟨others, hothers⟩
  obtain ⟨headers, hserved⟩ := hanswers
  have hmessages := hserved.eq hothers
  simp at hmessages

end FrontendAssets.App
