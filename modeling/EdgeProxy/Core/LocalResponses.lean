import EdgeProxy.Core.Responses
import EdgeProxy.Http.ResponseHead
import EdgeProxy.Lib.Blanks

/-! # Rewriting a response of the proxy

A response that ends an idle connection gets a `Connection: close` line before its empty line. The
text that is spliced in brings a line end of its own, and so the body starts two bytes late.
-/

namespace EdgeProxy

open Rust List

structure HttpMessage where
  statusLine : Text
  fields : List Header
  body : Bytes

variable {m : HttpMessage}

namespace HttpMessage

def contentLength (fields : List Header) : Option ℕ :=
  match fields.filter Header.isContentLength with
  | [h] => strictNumber 10 h.value
  | _ => none

/-- A strict reader: every line before the empty line is a field, and the body is as long as the
content length. -/
def read (bytes : Bytes) : Option HttpMessage := do
  let (head, rest) ← splitHeaderEnd bytes
  let text ← decode head
  match splitCrlf text with
  | [] => none
  | statusLine :: lines =>
    let length ← contentLength (rawFields lines)
    if lines.all (fun line => (splitOnce ':' line).any fun p => isHttpToken p.1) &&
        length ≤ rest.length then
      some ⟨statusLine, rawFields lines, rest.take length⟩
    else none

def head (statusLine : Text) (fields : List Header) : Text :=
  joinCrlf (statusLine :: fields.map Header.rawLine)

def wire (m : HttpMessage) : Bytes := encode (head m.statusLine m.fields) ++ (emptyLine ++ m.body)

/-- A status line, fields with one correct content length, and the body. -/
structure WellFormed (m : HttpMessage) : Prop where
  statusLine : '\r' ∉ m.statusLine
  fields : ∀ h ∈ m.fields, h.Clean
  length : contentLength m.fields = some m.body.length

theorem splitHeaderEnd_head {statusLine : Text} {fields : List Header} (hline : '\r' ∉ statusLine)
    (hfields : ∀ h ∈ fields, h.Clean) (rest : Bytes) :
    splitHeaderEnd (encode (head statusLine fields) ++ (emptyLine ++ rest)) =
      some (encode (head statusLine fields), rest) := by
  apply splitHeaderEnd_lines (not_infix_of_notMem hline)
  · exact forall_mem_map.mpr fun h hh => (hfields h hh).rawLine_spec.2
  · exact forall_mem_map.mpr fun h hh => (hfields h hh).rawLine_spec.1

theorem read_head {statusLine : Text} {fields : List Header} (hline : '\r' ∉ statusLine)
    (hfields : ∀ h ∈ fields, h.Clean) {n : ℕ} (hlength : contentLength fields = some n)
    {rest : Bytes} (hrest : n ≤ rest.length) :
    read (encode (head statusLine fields) ++ (emptyLine ++ rest)) =
      some ⟨statusLine, fields, rest.take n⟩ := by
  have hcr : ∀ l ∈ statusLine :: fields.map Header.rawLine, '\r' ∉ l :=
    forall_mem_cons.mpr
      ⟨hline, forall_mem_map.mpr fun h hh => (hfields h hh).rawLine_spec.2⟩
  have hlines : splitCrlf (head statusLine fields) = statusLine :: fields.map Header.rawLine :=
    splitCrlf_joinCrlf (cons_ne_nil _ _) hcr
  have htokens : ((fields.map Header.rawLine).all fun line =>
      (splitOnce ':' line).any fun p => isHttpToken p.1) = true := by
    rw [all_map, all_eq_true]
    intro h hh
    rw [Function.comp_apply, (hfields h hh).splitOnce_rawLine]
    exact (hfields h hh).name
  rw [read, splitHeaderEnd_head hline hfields]
  simp only [Option.bind_eq_bind, Option.bind_some, decode_encode, hlines,
    rawFields_rawLine hfields, hlength, htokens, hrest, decide_true, Bool.and_self, if_true]

theorem read_wire (h : m.WellFormed) : read m.wire = some m := by
  rw [wire, read_head h.statusLine h.fields h.length le_rfl, take_length]

def closeField : Header := ⟨"Connection".toList, " close".toList⟩

theorem head_concat (statusLine : Text) (fields : List Header) (h : Header) :
    head statusLine (fields ++ [h]) = head statusLine fields ++ '\r' :: '\n' :: h.rawLine := by
  rw [head, head, map_append]
  generalize fields.map Header.rawLine = lines
  induction lines generalizing statusLine with
  | nil => rfl
  | cons line lines ih =>
    change statusLine ++ '\r' :: '\n' :: joinCrlf (line :: (lines ++ _)) =
      (statusLine ++ '\r' :: '\n' :: joinCrlf (line :: lines)) ++ _
    rw [ih line, append_assoc]
    rfl

theorem responseWithConnectionClose_wire (h : m.WellFormed) :
    responseWithConnectionClose m.wire = encode (head m.statusLine (m.fields ++ [closeField])) ++
        (emptyLine ++ ([13, 10] ++ m.body)) := by
  have hclose : encode "\r\nConnection: close\r\n".toList =
      encode ('\r' :: '\n' :: closeField.rawLine) ++ [13, 10] := by decide
  rw [responseWithConnectionClose, wire, splitHeaderEnd_head h.statusLine h.fields, head_concat,
    encode_append]
  simp only [hclose, append_assoc]
  rfl

theorem read_responseWithConnectionClose (h : m.WellFormed) :
    read (responseWithConnectionClose m.wire) =
      some ⟨m.statusLine, m.fields ++ [closeField], ([13, 10] ++ m.body).take m.body.length⟩ := by
  have hlength : contentLength (m.fields ++ [closeField]) = some m.body.length := by
    have hfilter : [closeField].filter Header.isContentLength = [] := by decide
    rw [contentLength, filter_append, hfilter, append_nil]
    exact h.length
  rw [responseWithConnectionClose_wire h]
  refine read_head h.statusLine (fun f hf => ?_) hlength (length_append ▸ Nat.le_add_left _ _)
  rcases mem_append.mp hf with hf | hf
  · exact h.fields f hf
  · rw [mem_singleton.mp hf]
    exact ⟨by decide, by decide⟩

/-- The response as the client should read it: the same, with the field at most added. -/
def ClosesOnly (m m' : HttpMessage) : Prop :=
  m'.statusLine = m.statusLine ∧ m'.body = m.body ∧
    (m'.fields = m.fields ∨ m'.fields = m.fields ++ [closeField])

end HttpMessage

open HttpMessage

/-- A strict reader reads the rewritten response as the same response exactly if the body does not
change when it is moved behind a line end. -/
theorem connection_close_read_iff (h : m.WellFormed) :
    read m.wire = some m ∧
      ((∃ m', read (responseWithConnectionClose m.wire) = some m' ∧ m.ClosesOnly m') ↔
        m.body <+: [13, 10] ++ m.body) := by
  refine ⟨read_wire h, ?_⟩
  rw [read_responseWithConnectionClose h]
  constructor
  · rintro ⟨_, ⟨⟩, -, hbody, -⟩
    exact prefix_iff_eq_take.mpr hbody.symm
  · intro hprefix
    exact ⟨_, rfl, rfl, (prefix_iff_eq_take.mp hprefix).symm, .inr rfl⟩

def noContent : HttpMessage :=
  ⟨"HTTP/1.1 204 No Content".toList, [⟨"Content-Length".toList, " 0".toList⟩], []⟩

theorem connection_close_read_empty : ∃ m', read (responseWithConnectionClose noContent.wire) =
    some m' ∧ noContent.ClosesOnly m' := by
  have h : noContent.WellFormed := by
    refine ⟨by decide, fun f hf => ?_, by decide⟩
    rw [mem_singleton.mp hf]
    exact ⟨by decide, by decide⟩
  exact (connection_close_read_iff h).2.mpr (by decide)

/-- The response to a client that is too slow loses the end of its body. -/
theorem timeout_response_shifted :
    (read (httpErrorResponse 408 "Request Timeout")).map HttpMessage.body =
        some (encode "408 Request Timeout\n".toList) ∧
      (read (responseWithConnectionClose (httpErrorResponse 408 "Request Timeout"))).map
          HttpMessage.body =
        some (encode "\r\n408 Request Timeou".toList) := by
  decide

end EdgeProxy
