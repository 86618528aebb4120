import FrontendAssets.Proofs.App.Run

/-!
# `FrontendAssets.Proofs.App.Sending`: a response is sent whole or not at all

A response is made from another one by changes, each of which gives it another status or one more
header. Its status is then the last one given, and its headers are those it had and those it was
given, in order (`status_changed`, `headers_changed`).

The start of a response holds some of its texts: the content type, then the lowered name and the
value of each header. If all of them can be encoded, and the body too, the start and the body are
sent, the same start whether or not the body is left out. If not, sending fails, and nothing at all
has been asked before: with the first text of the start that cannot be encoded, or else with the
body. `sendResponse_of_changes` states all of this for every response and every row of changes.

Characters and bytes differ here: the length counts the bytes of a text, and a header has one byte
for each character. Halves of surrogate pairs have no bytes in either. A body with such a half is
refused too, unless the status forbids a body, since then it is not looked at
(`sendResponse_refuses_half`).
-/

set_option autoImplicit false

namespace FrontendAssets.Response

/-! ### Changes -/

/-- A change to a response, of the two that the library offers. -/
inductive Change where
  /-- Another status. -/
  | status (status : Int)
  /-- One more header. -/
  | header (name value : LooseText)
  deriving DecidableEq, Repr

/-- The response with a change. The response itself stays as it is; each change makes another
one. -/
def change (r : Response) : Change → Response
  | .status status => r.withStatus status
  | .header name value => r.withHeader name value

/-- The status that some changes leave: the last one given, if any. -/
def statusAfter (status : Int) (changes : List Change) : Int :=
  changes.foldl (fun current change => match change with
    | .status other => other
    | .header .. => current) status

/-- The headers that some changes give, in the order in which they give them. -/
def given (changes : List Change) : List (LooseText × LooseText) :=
  changes.filterMap fun
    | .status _ => none
    | .header name value => some (name, value)

variable (r : Response) (changes : List Change)

/-- Changes leave the body and the content type: there is no change for them. -/
theorem body_contentType_changed : (changes.foldl change r).body = r.body
    ∧ (changes.foldl change r).contentType = r.contentType := by
  induction changes generalizing r with
  | nil => exact ⟨rfl, rfl⟩
  | cons first more ih =>
      cases first with
      | status status => exact ih (r.withStatus status)
      | header name value => exact ih (r.withHeader name value)

/-- The status is the last one given, whatever was given before it. -/
theorem status_changed :
    (changes.foldl change r).status = statusAfter r.status changes := by
  induction changes generalizing r with
  | nil => rfl
  | cons first more ih =>
      cases first with
      | status status => exact ih (r.withStatus status)
      | header name value => exact ih (r.withHeader name value)

/-- The headers that are given come after those that were there. None replaces another one, even of
the same name. -/
theorem headers_changed :
    (changes.foldl change r).headers = r.headers ++ given changes := by
  induction changes generalizing r with
  | nil => exact (List.append_nil _).symm
  | cons first more ih =>
      cases first with
      | status status => exact ih (r.withStatus status)
      | header name value =>
          show (more.foldl change (r.withHeader name value)).headers
            = r.headers ++ (name, value) :: given more
          rw [ih, withHeader, List.append_assoc, List.singleton_append]

/-! ### The start -/

/-- A header as it is read from the bytes that are sent. -/
def readHeader (sent : Bytes × Bytes) : LooseText × LooseText :=
  (Latin.decode sent.1, Latin.decode sent.2)

/-- What the headers at the start of a response say: the content type, then the headers of the
response in order with their names in small letters, then the number of bytes of the body. -/
def shownHeaders (contentType : LooseText) (headers : List (LooseText × LooseText))
    (length : Nat) : List (LooseText × LooseText) :=
  (↑"content-type".toList, contentType)
    :: headers.map (fun header => (LooseText.lower header.1, header.2))
    ++ [(LooseText.ofText "content-length".toList, LooseText.ofText (Text.ofNat length))]

/-- A header that can be encoded is read as it was, except for its name in small letters. Each of
its characters is one byte. -/
theorem readHeader_sentHeader {header : LooseText × LooseText}
    (hname : (LooseText.lower header.1).all Codec.latin.fits = true)
    (hvalue : header.2.all Codec.latin.fits = true) :
    readHeader (sentHeader header) = (LooseText.lower header.1, header.2) := by
  rw [readHeader, sentHeader, Latin.decode_encode (encode_eq_bytes hname),
    Latin.decode_encode (encode_eq_bytes hvalue)]

/-- The body that is counted: none where the status has no body. -/
theorem payload_eq :
    r.payload = if (100 ≤ r.status ∧ r.status ≤ 199) ∨ r.status = 204 ∨ r.status = 304 then .ok []
      else r.body.toBytes := by
  have hpermits : permitsBody r.status = true
      ↔ ¬ ((100 ≤ r.status ∧ r.status ≤ 199) ∨ r.status = 204 ∨ r.status = 304) := by
    simp only [permitsBody, Bool.not_eq_true', Bool.or_eq_false_iff, Bool.and_eq_false_iff,
      decide_eq_false_iff_not, beq_eq_false_iff_ne]
    omega
  rw [payload]
  by_cases h : permitsBody r.status = true
  · rw [if_pos h, if_neg (hpermits.mp h)]
  · rw [if_neg h, if_pos (Decidable.not_not.mp (mt hpermits.mpr h))]

/-- If all texts of a start can be encoded, so can its content type, and the name and the value of
each header. -/
theorem fits_of_mem_texts {r : Response}
    (h : ∀ t ∈ r.contentType :: textsOf r.headers, t.all Codec.latin.fits = true) :
    r.contentType.all Codec.latin.fits = true
      ∧ ∀ header ∈ r.headers, (LooseText.lower header.1).all Codec.latin.fits = true
        ∧ header.2.all Codec.latin.fits = true := by
  refine ⟨h _ (List.mem_cons_self ..), fun header hheader => ?_⟩
  have hmem : ∀ t ∈ [LooseText.lower header.1, header.2], t ∈ textsOf r.headers := fun t ht =>
    List.mem_flatMap.mpr ⟨header, hheader, ht⟩
  have htexts : ∀ t ∈ [LooseText.lower header.1, header.2], t.all Codec.latin.fits = true :=
    fun t ht => h t (List.mem_cons_of_mem _ (hmem t ht))
  exact ⟨htexts _ (List.mem_cons_self ..),
    htexts _ (List.mem_cons_of_mem _ (List.mem_cons_self ..))⟩

/-- What the headers at the start of a response say. -/
theorem map_readHeader_startHeaders (htype : r.contentType.all Codec.latin.fits = true)
    (hheaders : ∀ header ∈ r.headers, (LooseText.lower header.1).all Codec.latin.fits = true
      ∧ header.2.all Codec.latin.fits = true) (body : Bytes) :
    (startHeaders r body).map readHeader = shownHeaders r.contentType r.headers body.length := by
  have hgiven : (r.headers.map sentHeader).map readHeader
      = r.headers.map fun header => (LooseText.lower header.1, header.2) := by
    rw [List.map_map]
    exact List.map_congr_left fun header hheader =>
      readHeader_sentHeader (hheaders header hheader).1 (hheaders header hheader).2
  have hfirst : readHeader (ascii "content-type".toList, Latin.bytes r.contentType)
      = (LooseText.ofText "content-type".toList, r.contentType) := by
    rw [readHeader, decode_ascii (by decide), Latin.decode_encode (encode_eq_bytes htype)]
  -- The length is written in digits, which are ASCII.
  have hlast : readHeader (ascii "content-length".toList, ascii (Text.ofNat body.length))
      = (LooseText.ofText "content-length".toList, LooseText.ofText (Text.ofNat body.length)) := by
    rw [readHeader, decode_ascii (Text.all_fits_ofNat _), decode_ascii (by decide)]
  rw [startHeaders, shownHeaders, List.map_append, List.map_cons, hgiven, hfirst,
    List.map_singleton, hlast]

end FrontendAssets.Response

namespace FrontendAssets.App

open Response (Change change statusAfter given textsOf unfit readHeader shownHeaders)

variable {w : Resolve.World} {r : Response}

/-- If all of its texts can be encoded, and its body too, a response gets its two messages, and the
start says what the response holds. -/
theorem exists_answers_sendResponse {body : Bytes}
    (h : ∀ t ∈ r.contentType :: textsOf r.headers, t.all Codec.latin.fits = true)
    (hbody : r.payload = .ok body) :
    ∃ sent : List (Bytes × Bytes),
      sent.map readHeader = shownHeaders r.contentType r.headers body.length
        ∧ ∀ head, Answers ((sendResponse r head).run (answer w))
            [.start r.status sent, .body (if head then [] else body)] := by
  obtain ⟨htype, hheaders⟩ := Response.fits_of_mem_texts h
  refine ⟨Response.startHeaders r body,
    Response.map_readHeader_startHeaders r htype hheaders body, ?_⟩
  -- The headers do not depend on whether the body is left out.
  intro head
  rw [run_sendResponse (Response.encoded_eq_ok htype hheaders hbody)]
  exact ⟨⟨(), rfl⟩, rfl⟩

/-- If the body alone cannot be encoded, sending fails with it before anything is asked: the start
could have been sent, and is not. -/
theorem run_sendResponse_of_payload_eq_error {e : Unencodable}
    (h : ∀ t ∈ r.contentType :: textsOf r.headers, t.all Codec.latin.fits = true)
    (hbody : r.payload = .error e) (head : Bool) :
    (sendResponse r head).run (answer w) = ⟨[], .error (.unencodable e)⟩ := by
  obtain ⟨htype, hheaders⟩ := Response.fits_of_mem_texts h
  exact run_sendResponse_of_error
    (Response.encoded_eq_error_of_payload htype hheaders hbody) head

/-- If one of the texts cannot be encoded, the first such text is what sending fails with, before
anything is asked and whatever the body is. -/
theorem exists_run_sendResponse_eq_error
    (h : ∃ t ∈ r.contentType :: textsOf r.headers, unfit t = true) :
    ∃ t e, (r.contentType :: textsOf r.headers).find? unfit = some t ∧ Latin.encode t = .error e
      ∧ ∀ head, (sendResponse r head).run (answer w) = ⟨[], .error (.unencodable e)⟩ := by
  obtain ⟨t, ht⟩ := Option.isSome_iff_exists.mp (List.find?_isSome.mpr h)
  obtain ⟨e, he⟩ := Response.exists_encode_eq_error (List.find?_some ht)
  exact ⟨t, e, ht, he, run_sendResponse_of_error (Response.encoded_eq_error ht he)⟩

/-- Sending any response that is made by changes. If the texts of its start can be encoded and the
body has bytes, exactly two messages are sent: a start with the last status given, the content type,
all headers in order with lowered names and the number of bytes of the body, then this body. There
is none where the status has none, and `head` leaves it out of the second message only. If some of
the texts cannot be encoded, sending fails with the first of them, and if only the body cannot, with
the body; in both cases nothing has been sent. -/
theorem sendResponse_of_changes (w : Resolve.World) (initial : Response)
    (changes : List Change) :
    let status := statusAfter initial.status changes
    let headers := initial.headers ++ given changes
    let texts := initial.contentType :: textsOf headers
    let content := if (100 ≤ status ∧ status ≤ 199) ∨ status = 204 ∨ status = 304 then .ok []
      else initial.body.toBytes
    let run := fun head => (sendResponse (changes.foldl change initial) head).run (answer w)
    ((∀ t ∈ texts, t.all Codec.latin.fits = true) →
      (∀ body, content = .ok body →
        ∃ sent : List (Bytes × Bytes),
          sent.map readHeader = shownHeaders initial.contentType headers body.length
            ∧ ∀ head, Answers (run head)
                [.start status sent, .body (if head then [] else body)])
        ∧ ∀ e, content = .error e → ∀ head, run head = ⟨[], .error (.unencodable e)⟩)
      ∧ ((∃ t ∈ texts, unfit t = true) →
        ∃ t e, texts.find? unfit = some t ∧ Latin.encode t = .error e
          ∧ ∀ head, run head = ⟨[], .error (.unencodable e)⟩) := by
  intro status headers texts content run
  obtain ⟨hbody, htype⟩ := Response.body_contentType_changed initial changes
  have hstatus := Response.status_changed initial changes
  have hheaders := Response.headers_changed initial changes
  -- The changed response is put in terms of the response before and of the changes; what is left
  -- are the three lemmas on responses.
  have hcontent : (changes.foldl change initial).payload = content := by
    rw [Response.payload_eq, hstatus, hbody]
  have htexts : (changes.foldl change initial).contentType
      :: textsOf (changes.foldl change initial).headers = texts := by
    rw [htype, hheaders]
  refine ⟨fun hfits => ⟨fun body hok => ?_, fun e herror head => ?_⟩, fun hunfit => ?_⟩
  · have hsent := exists_answers_sendResponse (w := w) (htexts.symm ▸ hfits) (hcontent.trans hok)
    rw [htype, hheaders, hstatus] at hsent
    exact hsent
  · exact run_sendResponse_of_payload_eq_error (htexts.symm ▸ hfits) (hcontent.trans herror) head
  · have hfailed := exists_run_sendResponse_eq_error (w := w) (htexts.symm ▸ hunfit)
    rw [htexts] at hfailed
    exact hfailed

/-- An accented letter has one byte in a header and two in a body. A character with no byte in
headers sends nothing, for a status without a body as well. Half a surrogate pair in the body sends
nothing either. -/
theorem sendResponse_of_changes_accent :
    let w : Resolve.World := ⟨⟨[]⟩, .bare []⟩
    let initial : Response := { body := .text "é".toList }
    let broken : Response := { body := .text [.char 'é', .half 0] }
    let name := "X-Name".toList
    (∃ sent : List (Bytes × Bytes),
        sent.map readHeader = [(↑"content-type".toList, ↑"text/html".toList),
          (↑"x-name".toList, ↑"é".toList), (↑"content-length".toList, ↑"2".toList)]
        ∧ ∀ head, Answers ((sendResponse
            ([.status 404, .header name "é".toList].foldl change initial) head).run (answer w))
            [.start 404 sent, .body (if head then [] else [0xC3, 0xA9])])
      ∧ (∃ t e, [initial.contentType, ↑"x-name".toList, ↑"€".toList].find? unfit = some t
          ∧ Latin.encode t = .error e
          ∧ ∀ head, (sendResponse ([.header name "€".toList, .status 204].foldl change initial)
              head).run (answer w) = ⟨[], .error (.unencodable e)⟩)
      ∧ ∀ head, (sendResponse ([].foldl change broken) head).run (answer w)
          = ⟨[], .error (.unencodable ⟨.utf8, 1, .half 0, 0⟩)⟩ := by
  intro w initial broken name
  refine ⟨?_, ?_, ?_⟩
  · obtain ⟨sent, hsent, hanswers⟩ :=
      ((sendResponse_of_changes w initial [.status 404, .header name "é".toList]).1
        (by decide +kernel)).1 [0xC3, 0xA9] rfl
    exact ⟨sent, hsent.trans (by decide +kernel), hanswers⟩
  · exact (sendResponse_of_changes w initial [.header name "€".toList, .status 204]).2
      (by decide +kernel)
  · exact ((sendResponse_of_changes w broken []).1 (by decide +kernel)).2 _ rfl

/-- A response whose texts all fit their headers is refused for half a surrogate pair in its body,
so that not even its start is sent. -/
theorem sendResponse_refuses_half :
    let w : Resolve.World := ⟨⟨[]⟩, .bare []⟩
    let r : Response := { body := .text [.half 0] }
    let run := (sendResponse r false).run (answer w)
    (∀ t ∈ r.contentType :: textsOf r.headers, t.all Codec.latin.fits = true)
      ∧ run = ⟨[], .error (.unencodable ⟨.utf8, 0, .half 0, 0⟩)⟩
      ∧ ¬ ∃ status headers content, Answers run [.start status headers, .body content] := by
  intro w r run
  have hfits : ∀ t ∈ r.contentType :: textsOf r.headers, t.all Codec.latin.fits = true := by
    decide +kernel
  have hrun : run = ⟨[], .error (.unencodable ⟨.utf8, 0, .half 0, 0⟩)⟩ :=
    run_sendResponse_of_payload_eq_error hfits rfl false
  refine ⟨hfits, hrun, ?_⟩
  -- An answer is a run that ends well.
  rintro ⟨status, headers, content, ⟨⟨⟩, hend⟩, -⟩
  rw [hrun] at hend
  cases hend

end FrontendAssets.App
