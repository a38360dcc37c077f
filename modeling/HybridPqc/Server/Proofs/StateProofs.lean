import HybridPqc.Lib.FifoTable
import HybridPqc.Server.State

/-!
# The session table

The two dictionaries list the same session ids in the same order, and at most 101 of them. Creating a
session is an insertion into a first-in first-out table of capacity 100.
-/

namespace HybridPqc

namespace Server

/-- The invariant of the two dictionaries. -/
structure TableInv (s : Server) : Prop where
  keys : s.sessionCounters.keys = s.sessions.keys
  size : s.sessions.size ≤ 101

theorem TableInv.init : TableInv Server.init := ⟨rfl, by decide⟩

theorem TableInv.exists_counter {s : Server} (h : s.TableInv) {sid : Bytes} {key : ByteArr 32}
    (hkey : s.sessions.get? sid = some key) : ∃ ctr, s.sessionCounters.get? sid = some ctr := by
  apply Dict.exists_get?
  rw [h.keys]
  exact Dict.mem_keys_of_get? hkey

@[simp] theorem evict_handshakeCount (s : Server) : s.evict.handshakeCount = s.handshakeCount := by
  unfold evict
  split
  · split <;> rfl
  · rfl

@[simp] theorem evict_telemetryLog (s : Server) : s.evict.telemetryLog = s.telemetryLog := by
  unfold evict
  split
  · split <;> rfl
  · rfl

theorem evict_keys (s : Server) :
    s.evict.sessions.keys =
      if 100 < s.sessions.keys.length then s.sessions.keys.tail else s.sessions.keys := by
  unfold evict
  rw [Dict.keys_length]
  split
  · cases hold : s.sessions.oldest? with
    | none =>
      have hnil : s.sessions.keys = [] := List.head?_eq_none_iff.mp hold
      simp [hnil]
    | some k => exact Dict.keys_erase_oldest hold
  · rfl

theorem TableInv.evict {s : Server} (h : s.TableInv) : s.evict.TableInv := by
  refine ⟨?_, ?_⟩
  · unfold Server.evict
    split
    · cases s.sessions.oldest? with
      | none => exact h.keys
      | some k =>
        show (s.sessionCounters.erase k).keys = (s.sessions.erase k).keys
        rw [Dict.keys_erase, Dict.keys_erase, h.keys]
    · exact h.keys
  · rw [← Dict.keys_length, evict_keys]
    have hsize := h.size
    rw [← Dict.keys_length] at hsize
    split
    · rw [List.length_tail]
      omega
    · exact hsize

theorem evict_size_le {s : Server} (h : s.TableInv) : s.evict.sessions.size ≤ 100 := by
  rw [← Dict.keys_length, evict_keys]
  have hsize := h.size
  rw [← Dict.keys_length] at hsize
  split
  · rw [List.length_tail]
    omega
  · omega

theorem evict_get? {s : Server} {sid : Bytes} (h : sid ∈ s.evict.sessions.keys) :
    s.evict.sessions.get? sid = s.sessions.get? sid := by
  unfold evict at h ⊢
  split
  · next hfull =>
    rw [if_pos hfull] at h
    cases hold : s.sessions.oldest? with
    | none => rfl
    | some k =>
      rw [hold] at h
      apply Dict.get?_erase_ne
      rintro rfl
      exact absurd (Dict.get?_erase_self s.sessions sid) (by
        obtain ⟨v, hv⟩ := Dict.exists_get? h
        simp only at hv
        rw [hv]
        simp)
  · rfl

theorem evict_counter {s : Server} {sid : Bytes} (h : sid ∈ s.evict.sessions.keys) :
    s.evict.sessionCounters.get? sid = s.sessionCounters.get? sid := by
  unfold evict at h ⊢
  split
  · next hfull =>
    rw [if_pos hfull] at h
    cases hold : s.sessions.oldest? with
    | none => rfl
    | some k =>
      rw [hold] at h
      apply Dict.get?_erase_ne
      rintro rfl
      have hmem : sid ∈ (s.sessions.erase sid).keys := h
      exact Dict.get?_eq_none_iff.mp (Dict.get?_erase_self s.sessions sid) hmem
  · rfl

/-- A new session enters the table of ids as into a first-in first-out table. -/
theorem createSession_keys {s : Server} {sid : Bytes} (hsid : sid ∉ s.sessions.keys)
    (key : ByteArr 32) :
    (s.createSession sid key).sessions.keys = FifoTable.push 100 s.sessions.keys sid := by
  have hsid' : sid ∉ s.evict.sessions.keys := by
    rw [evict_keys]
    split
    · exact fun h => hsid (List.mem_of_mem_tail h)
    · exact hsid
  show (s.evict.sessions.set sid key).keys = _
  rw [Dict.keys_set_of_notMem _ hsid', evict_keys]
  rfl

theorem TableInv.createSession {s : Server} (h : s.TableInv) (sid : Bytes) (key : ByteArr 32) :
    (s.createSession sid key).TableInv := by
  have hkeys : (s.evict.sessionCounters).keys = s.evict.sessions.keys := h.evict.keys
  refine ⟨?_, ?_⟩
  · show (s.evict.sessionCounters.set sid (-1)).keys = (s.evict.sessions.set sid key).keys
    rw [Dict.keys_set, Dict.keys_set, hkeys]
  · show (s.evict.sessions.set sid key).size ≤ 101
    have hsize := evict_size_le h
    rw [← Dict.keys_length] at hsize ⊢
    rw [Dict.keys_set]
    split
    · omega
    · rw [List.length_append, List.length_singleton]
      omega

@[simp] theorem createSession_get?_self (s : Server) (sid : Bytes) (key : ByteArr 32) :
    (s.createSession sid key).sessions.get? sid = some key :=
  Dict.get?_set_self _ _ _

@[simp] theorem createSession_counter_self (s : Server) (sid : Bytes) (key : ByteArr 32) :
    (s.createSession sid key).sessionCounters.get? sid = some (-1) :=
  Dict.get?_set_self _ _ _

theorem mem_evict_of_mem_createSession {s : Server} {sid sid' : Bytes} {key : ByteArr 32}
    (hne : sid' ≠ sid) (h : sid' ∈ (s.createSession sid key).sessions.keys) :
    sid' ∈ s.evict.sessions.keys := by
  have hmem : sid' ∈ (s.evict.sessions.set sid key).keys := h
  rw [Dict.keys_set] at hmem
  split at hmem
  · exact hmem
  · rcases List.mem_append.mp hmem with hold | hnew
    · exact hold
    · exact absurd (List.mem_singleton.mp hnew) hne

theorem createSession_get?_ne {s : Server} {sid sid' : Bytes} {key : ByteArr 32} (hne : sid' ≠ sid)
    (h : sid' ∈ (s.createSession sid key).sessions.keys) :
    (s.createSession sid key).sessions.get? sid' = s.sessions.get? sid' := by
  have hset : (s.createSession sid key).sessions.get? sid' = s.evict.sessions.get? sid' :=
    Dict.get?_set_ne _ _ hne
  rw [hset, evict_get? (mem_evict_of_mem_createSession hne h)]

theorem createSession_counter_ne {s : Server} {sid sid' : Bytes} {key : ByteArr 32} (hne : sid' ≠ sid)
    (h : sid' ∈ (s.createSession sid key).sessions.keys) :
    (s.createSession sid key).sessionCounters.get? sid' = s.sessionCounters.get? sid' := by
  have hset : (s.createSession sid key).sessionCounters.get? sid' =
      s.evict.sessionCounters.get? sid' := Dict.get?_set_ne _ _ hne
  rw [hset, evict_counter (mem_evict_of_mem_createSession hne h)]

@[simp] theorem createSession_handshakeCount (s : Server) (sid : Bytes) (key : ByteArr 32) :
    (s.createSession sid key).handshakeCount = s.handshakeCount :=
  evict_handshakeCount s

@[simp] theorem createSession_telemetryLog (s : Server) (sid : Bytes) (key : ByteArr 32) :
    (s.createSession sid key).telemetryLog = s.telemetryLog :=
  evict_telemetryLog s

end Server

end HybridPqc
