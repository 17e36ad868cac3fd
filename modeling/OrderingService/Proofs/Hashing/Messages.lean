import OrderingService.Hashing.Algorithm
import OrderingService.Proofs.Hashing.Outcome

/-!
# What is hashed

The history of a strategy shows which byte strings were hashed: each accumulator hashes the chunks
written to it, joined. A statement that holds unless the digest collides names two byte strings
among these, so it is a statement about one computation and not about the existence of collisions.

The strategies here accept every write and digest the bytes written, joined. From every history such
a strategy gives the same value and hashes the same messages, so a hashing computation is described
by these two alone.

## Main definitions

* `History.messages`, `History.messagesSince` — the messages hashed, latest first
* `Collides` — two different messages of a list have the same digest
* `HashStrategy.Computes` — the strategy digests the bytes written, joined, and refuses nothing
* `Hashing.Yields` — what a computation gives and which messages it hashes, from every history

## Main results

* `Hashing.Yields.bind` — one computation after another
* `HashStrategy.leafHash_yields`, `HashStrategy.interiorHash_yields` — the two tagged digests
-/

namespace OrderingService

namespace History

/-- The messages hashed: for each accumulator the chunks written to it, joined; latest first. -/
def messages : History → List Bytes
  | [] => []
  | .accumulator :: h => [] :: messages h
  | .write bytes :: h =>
    match messages h with
    | [] => []
    | message :: earlier => (message ++ bytes) :: earlier

/-- The messages hashed between two moments, latest first. -/
def messagesSince (before after : History) : List Bytes :=
  after.messages.take (after.messages.length - before.messages.length)

theorem messagesSince_eq {before after : History} {ms : List Bytes}
    (h : after.messages = ms ++ before.messages) : messagesSince before after = ms := by
  rw [messagesSince, h, List.length_append, Nat.add_sub_cancel, List.take_left]

end History

/-- Two different messages of a list have the same digest. -/
def Collides (f : Bytes → Bytes) (ms : List Bytes) : Prop :=
  ∃ a ∈ ms, ∃ b ∈ ms, a ≠ b ∧ f a = f b

instance (f : Bytes → Bytes) (ms : List Bytes) : Decidable (Collides f ms) :=
  inferInstanceAs (Decidable (∃ a ∈ ms, ∃ b ∈ ms, a ≠ b ∧ f a = f b))

/-- Without a collision a digest determines its message. -/
theorem eq_of_not_collides {f : Bytes → Bytes} {ms : List Bytes} (h : ¬ Collides f ms) {a b : Bytes}
    (ha : a ∈ ms) (hb : b ∈ ms) (hf : f a = f b) : a = b := by
  by_cases hab : a = b
  · exact hab
  · exact absurd ⟨a, ha, b, hb, hab, hf⟩ h

/-- A strategy refuses nothing and digests the bytes written, joined. -/
structure HashStrategy.Computes (H : HashStrategy) (f : Bytes → Bytes) : Prop where
  accepts : ∀ h bytes, H.refusal h bytes = none
  digest_eq : ∀ h chunks, H.digest h chunks = f chunks.flatten

theorem HashStrategy.computes_ofDigest (name : String) (f : Bytes → Bytes) :
    (HashStrategy.ofDigest name f).Computes f := ⟨fun _ _ => rfl, fun _ _ => rfl⟩

/-- A digest of one byte, under which a few short messages do not collide. -/
def mixed (message : Bytes) : Bytes := [message.foldl (fun acc b => 31 * acc + b + 7) 1]

/-- From every history, a computation succeeds with `a` and hashes the messages `ms`, latest
first. -/
def Hashing.Yields {α : Type} (x : Hashing α) (a : α) (ms : List Bytes) : Prop :=
  ∀ h : History, ∃ h' : History, x h = .ok a h' ∧ h'.messages = ms ++ h.messages

namespace Hashing

variable {α β : Type} {x : Hashing α} {f : α → Hashing β} {a : α} {b : β} {ms ns : List Bytes}

theorem yields_pure (a : α) : Yields (pure a) a [] := fun h => ⟨h, rfl, rfl⟩

theorem Yields.bind (hx : x.Yields a ms) (hf : (f a).Yields b ns) :
    Yields (x >>= f) b (ns ++ ms) := by
  intro h
  obtain ⟨h₁, hx, hms⟩ := hx h
  obtain ⟨h₂, hf, hns⟩ := hf h₁
  exact ⟨h₂, bind_eq_ok.mpr ⟨a, h₁, hx, hf⟩, by rw [hns, hms, List.append_assoc]⟩

/-- A last step that hashes nothing. -/
theorem Yields.bind_pure (hx : x.Yields a ms) (g : α → β) :
    Yields (x >>= fun a => pure (g a)) (g a) ms := by
  have hg : Yields (x >>= fun a => pure (g a)) (g a) ([] ++ ms) := hx.bind (yields_pure (g a))
  rwa [List.nil_append] at hg

theorem Yields.outcome (hx : x.Yields a ms) (h : History) :
    ∃ h', x.outcome h = (.ok a, h') ∧ h'.messages = ms ++ h.messages := by
  obtain ⟨h', hx, hms⟩ := hx h
  exact ⟨h', outcome_eq_ok.mpr hx, hms⟩

theorem outcome_pure (a : α) (h : History) : (pure a : Hashing α).outcome h = (.ok a, h) := rfl

end Hashing

namespace HashStrategy

variable {H : HashStrategy} {f : Bytes → Bytes}

/-! ### Digests -/

theorem write_eq_ok (hH : H.Computes f) (bytes : Bytes) (h : History) :
    H.write bytes h = .ok () (.write bytes :: h) := by
  rw [write, hH.accepts]

/-- All chunks go into the message of the latest accumulator. -/
theorem writeAll_messages (hH : H.Computes f) :
    ∀ (chunks : List Bytes) {h : History} {message : Bytes} {earlier : List Bytes},
      h.messages = message :: earlier → ∃ h', H.writeAll chunks h = .ok () h' ∧
        h'.messages = (message ++ chunks.flatten) :: earlier := by
  intro chunks
  induction chunks with
  | nil =>
    intro h message earlier hm
    exact ⟨h, rfl, by rw [hm, List.flatten_nil, List.append_nil]⟩
  | cons chunk rest ih =>
    intro h message earlier hm
    have hwritten : History.messages (.write chunk :: h) = (message ++ chunk) :: earlier := by
      rw [History.messages, hm]
    obtain ⟨h', hrest, hm'⟩ := ih hwritten
    refine ⟨h', Hashing.bind_eq_ok.mpr ⟨(), _, write_eq_ok hH chunk h, hrest⟩, ?_⟩
    rw [hm', List.flatten_cons, List.append_assoc]

theorem digestOf_yields (hH : H.Computes f) (chunks : List Bytes) :
    (H.digestOf chunks).Yields (f chunks.flatten) [chunks.flatten] := by
  intro h
  obtain ⟨h', hwrite, hm⟩ := writeAll_messages hH chunks
    (show History.messages (.accumulator :: h) = [] :: h.messages from rfl)
  refine ⟨h', ?_, hm⟩
  have hget : (get : Hashing History) h = .ok h h := rfl
  have hset : (set (HashCall.accumulator :: h) : Hashing PUnit) h
      = .ok ⟨⟩ (.accumulator :: h) := rfl
  rw [digestOf, ← hH.digest_eq h chunks]
  refine Hashing.bind_eq_ok.mpr ⟨h, h, hget, Hashing.bind_eq_ok.mpr ⟨⟨⟩, _, hset, ?_⟩⟩
  refine Hashing.bind_eq_ok.mpr ⟨(), h', hwrite, ?_⟩
  rfl

theorem leafHash_yields (hH : H.Computes f) (payload : Bytes) :
    (H.leafHash payload).Yields (leafTag :: f payload) [payload] := by
  have hdigest := digestOf_yields hH [payload]
  rw [List.flatten_singleton] at hdigest
  exact hdigest.bind_pure (leafTag :: ·)

theorem interiorHash_yields (hH : H.Computes f) (left right : Bytes) :
    (H.interiorHash left right).Yields (interiorTag :: f (left ++ right)) [left ++ right] := by
  have hdigest := digestOf_yields hH [left, right]
  rw [show [left, right].flatten = left ++ right by simp] at hdigest
  exact hdigest.bind_pure (interiorTag :: ·)

end HashStrategy

end OrderingService
