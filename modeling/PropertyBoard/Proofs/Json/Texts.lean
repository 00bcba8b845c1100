import PropertyBoard.Proofs.Json.Lawful
import PropertyBoard.Request
import PropertyBoard.Store.Row

/-!
# PropertyBoard.Proofs.Json.Texts

JSON columns: what is stored is what was written.

* `Store.stored?_of_keeps`: what a codec keeps is read back from a column, lists of texts among it.
* `StoredJson.encode_eq_ok`, `StoredJson.encode_eq_error`: when a value is written at all.
-/

namespace PropertyBoard

namespace Store

theorem stored?_of_keeps {α : Type} {c : Codec α} {a : α} (h : c.Keeps maxDepth a) :
    stored? c (c.encode a).text = some a := by
  rw [stored?, h.read]

@[simp] theorem stored?_texts (ts : List String) :
    stored? Codec.texts (Json.ofTexts ts).text = some ts :=
  stored?_of_keeps (Codec.keeps_texts ts)

end Store

namespace StoredJson

theorem encode_eq_ok {what id : String} {j : Json} {text : String} :
    encode what id j = .ok text ↔ j.text.utf8ByteSize ≤ maxSize ∧ j.text = text := by
  unfold encode
  simp only
  split
  · rename_i h
    constructor
    · intro h'
      cases h'
    · rintro ⟨hle, _⟩
      omega
  · rename_i h
    constructor
    · intro h'
      cases h'
      exact ⟨by omega, rfl⟩
    · rintro ⟨_, rfl⟩
      rfl

theorem encode_eq_error {what id : String} {j : Json} {e : Refusal} :
    encode what id j = .error e ↔ maxSize < j.text.utf8ByteSize ∧ .tooLong what id maxSize = e := by
  unfold encode
  simp only
  split
  · rename_i h
    simp [h]
  · rename_i h
    simp [h]

end StoredJson
end PropertyBoard
