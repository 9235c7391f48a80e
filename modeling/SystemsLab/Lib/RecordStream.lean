import SystemsLab.Lib.Checked

/-!
# Streams of self-delimiting records

If decoding inverts encoding on single records, with anything behind them, it does on streams (`decodeAll_eq_ok`).
-/

namespace SystemsLab

/-- A code of records `α` in symbols `β`, with a state `σ` along the stream. -/
structure RecordStream (σ α β ε : Type) where
  encode : σ → α → Except ε (List β)
  /-- The first record of the rest of a stream, and its length. -/
  decode : σ → List β → Except ε (α × Nat)
  next : σ → α → σ
  decode_eq_ok : ∀ {s : σ} {bytes : List β} {a : α} {n : Nat}, decode s bytes = .ok (a, n) ↔
    ∃ r rest, encode s a = .ok r ∧ bytes = r ++ rest ∧ n = r.length
  encode_pos : ∀ {s : σ} {a : α} {r : List β}, encode s a = .ok r → 0 < r.length

namespace RecordStream
variable {σ α β ε : Type} (c : RecordStream σ α β ε)
variable {bytes : List β} {s : σ} {as : List α}

def encodeAll : σ → List α → Except ε (List β)
  | _, [] => pure []
  | s, a :: as => do
    let record ← c.encode s a
    let rest ← encodeAll (c.next s a) as
    pure (record ++ rest)

def decodeAll (s : σ) (bytes : List β) : Except ε (List α) :=
  if bytes.isEmpty then .ok []
  else
    match _hr : c.decode s bytes with
    | .error e => .error e
    | .ok (a, n) => do
      let rest ← decodeAll (c.next s a) (bytes.drop n)
      pure (a :: rest)
termination_by bytes.length
decreasing_by
  obtain ⟨r, rest, he, rfl, rfl⟩ := c.decode_eq_ok.mp _hr
  have hp := c.encode_pos he
  simp only [List.length_drop, List.length_append]; omega

@[simp] theorem decodeAll_nil (s : σ) : c.decodeAll s [] = .ok [] := by rw [decodeAll]; rfl

variable {c}

theorem decodeAll_of_record {a : α} {n : Nat} (h : c.decode s bytes = .ok (a, n)) :
    c.decodeAll s bytes = (c.decodeAll (c.next s a) (bytes.drop n) >>= fun rest => pure (a :: rest)) := by
  obtain ⟨r, rest, he, hb, -⟩ := c.decode_eq_ok.mp h
  have hp := c.encode_pos he
  have hne : bytes.isEmpty = false := by
    rw [hb]; cases r with
    | nil => simp at hp
    | cons x r => rfl
  conv_lhs => rw [decodeAll, hne]
  simp only [Bool.false_eq_true, if_false]
  split
  · rename_i e he'; rw [h] at he'; cases he'
  · rename_i a' n' he'
    rw [h] at he'; cases he'
    rfl

theorem decodeAll_of_error {e : ε} (hb : bytes ≠ []) (h : c.decode s bytes = .error e) :
    c.decodeAll s bytes = .error e := by
  rw [decodeAll, if_neg (by simpa using hb)]
  split
  · rename_i e' he; rw [h] at he; cases he; rfl
  · rename_i he; rw [h] at he; cases he

theorem decodeAll_encodeAll : ∀ {as : List α} {s : σ} {bytes : List β}, c.encodeAll s as = .ok bytes →
    c.decodeAll s bytes = .ok as
  | [], s, bytes, h => by cases h; exact c.decodeAll_nil s
  | a :: as, s, bytes, h => by
    simp only [encodeAll, steps_ok] at h
    obtain ⟨r, hr, rest, hrest, rfl⟩ := h
    rw [decodeAll_of_record (c.decode_eq_ok.mpr ⟨r, rest, hr, rfl, rfl⟩), List.drop_left, decodeAll_encodeAll hrest]
    rfl

theorem encodeAll_decodeAll (h : c.decodeAll s bytes = .ok as) : c.encodeAll s as = .ok bytes := by
  -- Each record is non-empty, so the rest of the stream is shorter.
  induction hn : bytes.length using Nat.strongRecOn generalizing s bytes as with
  | ind n ih =>
    by_cases hb : bytes = []
    · subst hb
      rw [decodeAll_nil] at h; cases h
      rfl
    · cases hr : c.decode s bytes with
      | error e => rw [decodeAll_of_error hb hr] at h; cases h
      | ok p =>
        obtain ⟨a, len⟩ := p
        rw [decodeAll_of_record hr] at h
        simp only [steps_ok] at h
        obtain ⟨rest, hrest, rfl⟩ := h
        obtain ⟨r, tail, he, rfl, rfl⟩ := c.decode_eq_ok.mp hr
        rw [List.drop_left] at hrest
        have hp := c.encode_pos he
        have := ih tail.length (by rw [← hn, List.length_append]; omega) hrest rfl
        rw [encodeAll, he, except_bind_ok, this]
        rfl

theorem decodeAll_eq_ok : c.decodeAll s bytes = .ok as ↔ c.encodeAll s as = .ok bytes :=
  ⟨encodeAll_decodeAll, decodeAll_encodeAll⟩

end RecordStream

end SystemsLab
