import FrontendAssets.Http.Message
import FrontendAssets.Proofs.Checks
import FrontendAssets.Proofs.MediaType

/-!
# `FrontendAssets.Proofs.Http.Message`: which responses can be sent

A response can be sent if its content type and its headers have one byte for each code point, and if
its body has bytes. Then `startHeaders` are the headers of its start, and the body is sent as it is
(`encoded_eq_ok`). Otherwise there is a complaint, and nothing is sent. The texts of the start come
first: the first of them that has no encoding is what is complained about (`encoded_eq_error`), and
only if there is none is it the body (`encoded_eq_error_of_payload`).

The responses to requests can always be sent. Their content types come from a table
(`all_fits_ofUrl`), their one header is fixed, and their bodies are bytes (`encoded_ofResolution`,
`encoded_notFound`). The start of such a response has one content type and one length
(`valuesOf_contentType`, `valuesOf_contentLength`).
-/

set_option autoImplicit false

namespace FrontendAssets

/-- The digits of a number have one byte each. -/
theorem Text.all_fits_ofNat (n : Nat) :
    (LooseText.ofText (Text.ofNat n)).all Codec.latin.fits = true := by
  rw [List.all_eq_true]
  intro p hp
  obtain ⟨d, hd, rfl⟩ := List.mem_map.mp hp
  have hdigit : d.isDigit = true := Nat.isDigit_of_mem_toDigits (by decide) (by decide) hd
  simp only [Char.isDigit, Bool.and_eq_true, decide_eq_true_eq] at hdigit
  have hnine : d.toNat ≤ 57 := hdigit.2
  show decide (d.toNat < 0x100) = true
  exact decide_eq_true (by omega)

namespace Response

variable {r : Response} {t : LooseText} {body : Bytes} {e : Unencodable}

/-! ### Headers -/

/-- A text that fits has its bytes. -/
theorem encode_eq_bytes (h : t.all Codec.latin.fits = true) :
    Latin.encode t = .ok (Latin.bytes t) :=
  Latin.encode_eq_ok (List.all_eq_true.mp h)

/-- Text that has bytes is read back from them. -/
theorem decode_ascii {t : Text} (h : (LooseText.ofText t).all Codec.latin.fits = true) :
    Latin.decode (ascii t) = t :=
  LooseText.ofText_inj.mp (Latin.decode_encode (encode_eq_bytes h))

/-- A header as it is sent: its name in small letters, its value as it is. -/
def sentHeader (header : LooseText × LooseText) : Bytes × Bytes :=
  (Latin.bytes (LooseText.lower header.1), Latin.bytes header.2)

/-- The headers at the start of a response that has some body: the content type, those of the
response in their order, and the number of bytes of the body. -/
def startHeaders (r : Response) (body : Bytes) : List (Bytes × Bytes) :=
  (ascii "content-type".toList, Latin.bytes r.contentType) :: r.headers.map sentHeader
    ++ [(ascii "content-length".toList, ascii (Text.ofNat body.length))]

/-- Headers can be encoded if their lowered names and their values can. -/
theorem encodeHeaders_eq_ok {headers : List (LooseText × LooseText)}
    (h : ∀ header ∈ headers, (LooseText.lower header.1).all Codec.latin.fits = true
      ∧ header.2.all Codec.latin.fits = true) :
    encodeHeaders headers = .ok (headers.map sentHeader) := by
  induction headers with
  | nil => rfl
  | cons header more ih =>
      obtain ⟨hname, hvalue⟩ := h header (List.mem_cons_self ..)
      rw [encodeHeaders, encodeHeader, encode_eq_bytes hname, encode_eq_bytes hvalue,
        ih fun d hd => h d (List.mem_cons_of_mem _ hd)]
      rfl

/-- The texts of some headers, in the order in which they are encoded. -/
def textsOf (headers : List (LooseText × LooseText)) : List LooseText :=
  headers.flatMap fun header => [LooseText.lower header.1, header.2]

/-- The name of a header comes before its value, and both before the next header. -/
theorem textsOf_cons (header : LooseText × LooseText) (more : List (LooseText × LooseText)) :
    textsOf (header :: more) = LooseText.lower header.1 :: header.2 :: textsOf more := rfl

/-- Text that has no encoding in headers: some code point in it does not fit into a byte. -/
def unfit (t : LooseText) : Bool := !t.all Codec.latin.fits

/-- A text is unfit or fits. -/
theorem all_fits_of_not_unfit (h : ¬ unfit t = true) : t.all Codec.latin.fits = true := by
  simpa [unfit] using h

/-- Such a text is refused, and there is a complaint about it. -/
theorem exists_encode_eq_error (h : unfit t = true) : ∃ e, Latin.encode t = .error e := by
  cases he : Latin.encode t with
  | error e => exact ⟨e, rfl⟩
  | ok bytes =>
      have hfit : t.all Codec.latin.fits = true :=
        List.all_eq_true.mpr ((Latin.encode_isOk_iff t).mp ⟨bytes, he⟩)
      rw [unfit, hfit] at h
      cases h

/-- Headers are refused for the first of their texts that has no encoding. The induction is on the
headers: whatever stands before that text is encoded. -/
theorem encodeHeaders_eq_error {headers : List (LooseText × LooseText)}
    (hfind : (textsOf headers).find? unfit = some t) (he : Latin.encode t = .error e) :
    encodeHeaders headers = .error e := by
  induction headers with
  | nil => cases hfind
  | cons header more ih =>
      rw [textsOf_cons] at hfind
      rw [encodeHeaders, encodeHeader]
      -- The name comes before the value, and both before the other headers.
      by_cases hname : unfit (LooseText.lower header.1) = true
      · rw [List.find?_cons_of_pos hname] at hfind
        cases hfind
        rw [he]
        rfl
      rw [List.find?_cons_of_neg hname] at hfind
      rw [encode_eq_bytes (all_fits_of_not_unfit hname)]
      by_cases hvalue : unfit header.2 = true
      · rw [List.find?_cons_of_pos hvalue] at hfind
        cases hfind
        rw [he]
        rfl
      rw [List.find?_cons_of_neg hvalue] at hfind
      rw [encode_eq_bytes (all_fits_of_not_unfit hvalue), ih hfind]
      rfl

/-! ### Whole responses -/

section Whole

variable (htype : r.contentType.all Codec.latin.fits = true)
  (hheaders : ∀ header ∈ r.headers, (LooseText.lower header.1).all Codec.latin.fits = true
    ∧ header.2.all Codec.latin.fits = true)

include htype hheaders

/-- A response can be sent if its content type, its headers and its body can be encoded, and then
these are its start and its body. -/
theorem encoded_eq_ok (hbody : r.payload = .ok body) :
    r.encoded = .ok ⟨startHeaders r body, body⟩ := by
  rw [encoded, encode_eq_bytes htype, encodeHeaders_eq_ok hheaders, hbody]
  rfl

/-- If the body alone cannot be encoded, the response is refused for the body. It is encoded
last. -/
theorem encoded_eq_error_of_payload (hbody : r.payload = .error e) : r.encoded = .error e := by
  rw [encoded, encode_eq_bytes htype, encodeHeaders_eq_ok hheaders, hbody]
  rfl

end Whole

/-- A response is refused for the first of the texts of its start that has no encoding, whatever its
body is. The content type comes before the headers. -/
theorem encoded_eq_error (hfind : (r.contentType :: textsOf r.headers).find? unfit = some t)
    (he : Latin.encode t = .error e) : r.encoded = .error e := by
  rw [encoded]
  by_cases htype : unfit r.contentType = true
  · rw [List.find?_cons_of_pos htype] at hfind
    cases hfind
    rw [he]
    rfl
  rw [List.find?_cons_of_neg htype] at hfind
  rw [encode_eq_bytes (all_fits_of_not_unfit htype), encodeHeaders_eq_error hfind he]
  rfl

/-! ### Headers of a start -/

/-- The values that some headers have under a name, which is in small letters. -/
def valuesOf (name : Text) (headers : List (Bytes × Bytes)) : List Text :=
  (headers.filter fun header => Text.lower (Latin.decode header.1) == name).map
    fun header => Latin.decode header.2

/-- The values of two rows of headers, one after the other. -/
theorem valuesOf_append (name : Text) (headers more : List (Bytes × Bytes)) :
    valuesOf name (headers ++ more) = valuesOf name headers ++ valuesOf name more := by
  simp only [valuesOf, List.filter_append, List.map_append]

/-- A header has its value under its own name. -/
theorem valuesOf_singleton_self {name : Text} (h : Text.lower (Latin.decode (ascii name)) = name)
    (value : Bytes) : valuesOf name [(ascii name, value)] = [Latin.decode value] := by
  simp [valuesOf, h]

/-- It has none under any other. -/
theorem valuesOf_singleton_of_ne {name : Text} {other : Bytes}
    (h : Text.lower (Latin.decode other) ≠ name) (value : Bytes) :
    valuesOf name [(other, value)] = [] := by
  simp [valuesOf, h]

/-- Under any other name than its own, the header of responses to requests has no value. -/
theorem valuesOf_map_sentHeader {name : Text} {headers : List (LooseText × LooseText)}
    (h : ∀ header ∈ headers, header = cacheControl)
    (hname : Text.lower (Latin.decode (sentHeader cacheControl).1) ≠ name) :
    valuesOf name (headers.map sentHeader) = [] := by
  have hnone : ∀ sent ∈ headers.map sentHeader, ¬ (Text.lower (Latin.decode sent.1) == name) := by
    intro sent hsent
    obtain ⟨header, hheader, rfl⟩ := List.mem_map.mp hsent
    rw [h header hheader]
    simpa using hname
  rw [valuesOf, List.filter_eq_nil_iff.mpr hnone]
  rfl

/-- The one content type of a start, where no header of the response is one. -/
theorem valuesOf_contentType {type : Text} (h : ∀ header ∈ r.headers, header = cacheControl)
    (htype : r.contentType = type) (hfits : (LooseText.ofText type).all Codec.latin.fits = true)
    (body : Bytes) : valuesOf "content-type".toList (startHeaders r body) = [type] := by
  rw [startHeaders, ← List.singleton_append, valuesOf_append, valuesOf_append, htype, ← ascii,
    valuesOf_singleton_self (by decide +kernel), valuesOf_map_sentHeader h (by decide +kernel),
    valuesOf_singleton_of_ne (by decide +kernel), decode_ascii hfits]
  rfl

/-- The one length of a start, which is that of the body that was counted. -/
theorem valuesOf_contentLength (h : ∀ header ∈ r.headers, header = cacheControl) (body : Bytes) :
    valuesOf "content-length".toList (startHeaders r body) = [Text.ofNat body.length] := by
  rw [startHeaders, ← List.singleton_append, valuesOf_append, valuesOf_append,
    valuesOf_singleton_of_ne (by decide +kernel), valuesOf_map_sentHeader h (by decide +kernel),
    valuesOf_singleton_self (by decide +kernel), decode_ascii (Text.all_fits_ofNat _)]
  rfl

/-! ### Responses to requests -/

variable (resolution : Resolution)

/-- The content type of a resolution is that of its response. -/
theorem contentType_ofResolution :
    (ofResolution resolution).contentType = resolution.mediaType := by
  unfold ofResolution
  dsimp only
  split <;> rfl

/-- The response has one header of its own, which tells caches to ask again. -/
theorem headers_ofResolution : (ofResolution resolution).headers = [cacheControl] := by
  unfold ofResolution
  dsimp only
  split <;> rfl

/-- It succeeds where a resource was found. -/
theorem status_ofResolution : (ofResolution resolution).status
    = if resolution.outcome = .bundled ∨ resolution.outcome = .file then 200 else 404 := by
  unfold ofResolution
  dsimp only
  split <;> rfl

/-- Neither of the two statuses forbids a body, so the bytes of the resolution are sent. -/
theorem payload_ofResolution :
    (ofResolution resolution).payload = .ok (resolution.body.getD []) := by
  unfold ofResolution
  dsimp only
  split <;> rfl

variable {resolution}

/-- What is sent of the response to a handled request. -/
def sentOf (resolution : Resolution) : Encoded where
  headers := startHeaders (ofResolution resolution) (resolution.body.getD [])
  body := resolution.body.getD []

/-- The response to a handled request can be sent, if its content type fits; its one header does,
and its body is bytes. -/
theorem encoded_ofResolution
    (h : (LooseText.ofText resolution.mediaType).all Codec.latin.fits = true) :
    (ofResolution resolution).encoded = .ok (sentOf resolution) := by
  apply encoded_eq_ok
  · rw [contentType_ofResolution]
    exact h
  · rw [headers_ofResolution]
    exact List.forall_mem_singleton.mpr ⟨by decide, by decide⟩
  · exact payload_ofResolution resolution

/-- What is sent where nothing answers for an address. -/
def notFoundSent : Encoded where
  headers := startHeaders notFound (Utf8.encode "Not Found".toList)
  body := Utf8.encode "Not Found".toList

/-- The plain 404 can be sent. -/
theorem encoded_notFound : notFound.encoded = .ok notFoundSent :=
  encoded_eq_ok (by decide) (List.forall_mem_nil _) rfl

end Response

end FrontendAssets
