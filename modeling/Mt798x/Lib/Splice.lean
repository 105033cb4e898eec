import Mt798x.Lib.Bytes

/-!
# Copies into a buffer, byte by byte
-/

namespace Bytes

variable {buf chunk : List Byte} {off i : ℕ}

lemma getElem?_splice_of_mem (h : off + chunk.length ≤ buf.length) (hle : off ≤ i)
    (hlt : i < off + chunk.length) : (splice buf off chunk)[i]? = chunk[i - off]? := by
  have htake : (buf.take off).length = off := List.length_take_of_le (by omega)
  rw [splice, List.append_assoc, List.getElem?_append_right (by omega), htake,
    List.getElem?_append_left (by omega)]

lemma getElem?_splice_of_not_mem (h : off + chunk.length ≤ buf.length)
    (hout : i < off ∨ off + chunk.length ≤ i) : (splice buf off chunk)[i]? = buf[i]? := by
  have htake : (buf.take off).length = off := List.length_take_of_le (by omega)
  rcases hout with hlt | hge
  · rw [splice, List.append_assoc, List.getElem?_append_left (by omega),
      List.getElem?_take_of_lt hlt]
  · rw [splice, List.getElem?_append_right (by rw [List.length_append]; omega), List.getElem?_drop,
      List.length_append, htake, Nat.add_sub_of_le hge]

end Bytes
