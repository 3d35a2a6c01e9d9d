import OburBackend.RequestContext.Middleware

/-!
# The ids that requests get

An id that goes into the log should be a run of 8 to 64 letters, digits, underscores and hyphens
(`WellFormed`). The pattern matches such a run, and also one with a line feed after it, for `$`
holds before a line feed that ends the text (`isSome_validRequestId`). So what is adopted is
well-formed unless the client sends just that.
-/

namespace OburBackend.RequestContext

open Text Regex
open RateLimit (Response)

/-- The id breaks no log line: 8 to 64 characters, each a letter, a digit, `_` or `-`. -/
def WellFormed (id : String) : Prop :=
  (8 ≤ id.length ∧ id.length ≤ 64) ∧ ∀ c ∈ id.toList, isIdChar c = true

/-- The ids in the log and in the header of the response. -/
def writtenIds {ε : Type} (handled : List LogRecord × Except ε Response) : List String :=
  handled.1.map (·.fields.requestId) ++
    match handled.2 with
    | .error _ => []
    | .ok response =>
      (response.headers.filter fun h => h.1.toLower = requestIdHeader.toLower).map (·.2)

/-! ## What is adopted -/

/-- The pattern takes well-formed ids, and such an id with a line feed behind it. -/
theorem isSome_validRequestId (supplied : String) :
    (validRequestId.matchStart supplied.toList).isSome = true ↔
      WellFormed supplied ∨ ∃ id, WellFormed id ∧ supplied = id ++ "\n" := by
  have hfeed : ∀ id, supplied = id ++ "\n" ↔ supplied.toList = id.toList ++ ['\n'] := fun id => by
    rw [← String.toList_inj, String.toList_append]
    rfl
  rw [validRequestId, isSome_matchStart_anchored (Means.between_char (by decide) isIdChar)]
  constructor
  · rintro ⟨word, rest, groups, hsupplied, ⟨hword, -⟩, rfl | rfl⟩
    · rw [List.append_nil] at hsupplied
      exact .inl (by rwa [WellFormed, ← String.length_toList, hsupplied])
    · refine .inr ⟨String.ofList word, ?_, ?_⟩
      · rwa [WellFormed, String.length_ofList, String.toList_ofList]
      · rwa [hfeed, String.toList_ofList]
  · rintro (⟨hlen, hchars⟩ | ⟨id, ⟨hlen, hchars⟩, hsupplied⟩)
    · rw [← String.length_toList] at hlen
      exact ⟨supplied.toList, [], [], (List.append_nil _).symm, ⟨⟨hlen, hchars⟩, rfl⟩, .inl rfl⟩
    · rw [← String.length_toList] at hlen
      exact ⟨id.toList, ['\n'], [], (hfeed id).mp hsupplied, ⟨⟨hlen, hchars⟩, rfl⟩, .inr rfl⟩

/-- That is not well formed. -/
theorem not_wellFormed_append_feed (id : String) : ¬ WellFormed (id ++ "\n") := by
  rintro ⟨-, hchars⟩
  have hfeed : isIdChar '\n' = true := hchars '\n' (by simp)
  exact absurd hfeed (by decide)

/-- A generated id is well formed. -/
theorem wellFormed_hex (u : Uuid) : WellFormed u.hex := by
  refine ⟨?_, Uuid.forall_mem_hex (fun d hd => ?_) u⟩
  · rw [u.length_hex]
    decide
  · have : ∀ d : Fin 16, isIdChar (Uuid.hexDigit d) = true := by decide
    exact this ⟨d, hd⟩

/-- A supplied id is taken over when the pattern takes it. -/
theorem resolveRequestId_of_supplied {request : Request} {supplied : String}
    (h : request.supplied = some supplied) (generated : Uuid) :
    resolveRequestId request generated =
      if (validRequestId.matchStart supplied.toList).isSome then supplied else generated.hex := by
  rw [resolveRequestId, h]

/-- What is adopted is well-formed, unless it is a well-formed id with a line feed after it. -/
theorem wellFormed_resolveRequestId_iff (request : Request) (generated : Uuid) :
    WellFormed (resolveRequestId request generated) ↔
      ¬ ∃ id, WellFormed id ∧ request.supplied = some (id ++ "\n") := by
  cases hsupplied : request.supplied with
  | none =>
    have hid : resolveRequestId request generated = generated.hex := by
      rw [resolveRequestId, hsupplied]
    rw [hid]
    exact iff_of_true (wellFormed_hex generated) (by simp)
  | some supplied =>
    rw [resolveRequestId_of_supplied hsupplied]
    by_cases hfeed : ∃ id, WellFormed id ∧ supplied = id ++ "\n"
    · rw [if_pos ((isSome_validRequestId supplied).mpr (.inr hfeed))]
      obtain ⟨id, hwell, rfl⟩ := hfeed
      exact iff_of_false (not_wellFormed_append_feed id) (not_not.mpr ⟨id, hwell, rfl⟩)
    · refine iff_of_true ?_ fun ⟨id, hid, heq⟩ => hfeed ⟨id, hid, Option.some.inj heq⟩
      split
      · next hmatch => exact ((isSome_validRequestId supplied).mp hmatch).resolve_right hfeed
      · exact wellFormed_hex generated

/-! ## What is written -/

variable {ε : Type}

/-- Setting a header leaves one value of that name. -/
theorem values_setHeader (name value : String) (response : Response) :
    (((response.setHeader name value).headers.filter fun h => h.1.toLower = name.toLower).map
      (·.2)) = [value] := by
  have hothers : ((response.headers.filter fun h => h.1.toLower ≠ name.toLower).filter
      fun h => h.1.toLower = name.toLower) = [] := by
    rw [List.filter_filter, List.filter_eq_nil_iff]
    intro h _
    simp
  rw [Response.setHeader, List.filter_append, hothers]
  simp

/-- The log and the response carry the adopted id, and no other. -/
theorem mem_writtenIds_dispatch {request : Request} {generated : Uuid} {durationMs : ℚ}
    {callNext : String → Option String × Except ε Response} {id : String} :
    id ∈ writtenIds (dispatch request generated durationMs callNext) ↔
      id = resolveRequestId request generated := by
  rw [dispatch]
  rcases callNext (resolveRequestId request generated) with ⟨pathFormat, e | response⟩
  · simp [writtenIds]
  · simp only [writtenIds, values_setHeader]
    simp

/-- The adopted id and all that is written of it are well-formed, just when the client does not send
a well-formed id with a line feed after it. -/
theorem ids_wellFormed_iff (request : Request) (generated : Uuid) (durationMs : ℚ)
    (callNext : String → Option String × Except ε Response) :
    (WellFormed (resolveRequestId request generated) ∧
        ∀ id ∈ writtenIds (dispatch request generated durationMs callNext), WellFormed id) ↔
      ¬ ∃ id, WellFormed id ∧ request.supplied = some (id ++ "\n") := by
  rw [← wellFormed_resolveRequestId_iff request generated]
  refine ⟨And.left, fun hwell => ⟨hwell, fun id hid => ?_⟩⟩
  rw [mem_writtenIds_dispatch.mp hid]
  exact hwell

/-- A request with a line feed after its id. -/
def fedRequest : Request := { method := "GET", path := "/", supplied := some "abcdefgh\n" }

def fedHandled : List LogRecord × Except Unit Response :=
  dispatch fedRequest 0 0 fun _ => (none, .ok { status := 200, problem := none, headers := [] })

/-- The line feed gets into the log and into the response. -/
theorem not_ids_wellFormed_fedRequest :
    "abcdefgh\n" ∈ writtenIds fedHandled ∧
      ¬ (WellFormed (resolveRequestId fedRequest 0) ∧
        ∀ id ∈ writtenIds fedHandled, WellFormed id) := by
  have hwell : WellFormed "abcdefgh" := ⟨by decide, List.all_eq_true.mp (by decide)⟩
  have hmatch := (isSome_validRequestId "abcdefgh\n").mpr (.inr ⟨"abcdefgh", hwell, rfl⟩)
  have hid : resolveRequestId fedRequest 0 = "abcdefgh\n" := by
    rw [resolveRequestId_of_supplied rfl, if_pos hmatch]
  refine ⟨mem_writtenIds_dispatch.mpr hid.symm, fun h => ?_⟩
  rw [hid] at h
  exact not_wellFormed_append_feed "abcdefgh" h.1

end OburBackend.RequestContext
