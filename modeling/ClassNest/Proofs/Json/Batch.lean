import ClassNest.Batch.Json
import ClassNest.Proofs.Json.Shape

/-!
# Batches written and read back

Every part of a batch is faithful, from the entries of a constant pool up to the batch. A batch is therefore read back
from its text whatever its classes hold: any names, any indices, any field that is left empty. The text may come from
any layer that parses back the value it printed (`Batch.readWith_writeWith`), and this library's own is one
(`Batch.ofText_toText`).
-/
namespace ClassNest

open Json (Faithful)

theorem Access.faithful : Faithful Access.toJson Access.ofJson where
  plain a := .nat a.bits.toNat
  read_write a := by rw [ofJson, toJson, Json.faithful_uint16.read_write, Option.map_some]

theorem PoolEntry.faithful : Faithful PoolEntry.toJson PoolEntry.ofJson where
  plain e := by
    cases e with
    | className name => exact Json.plain_record (by simp [Json.faithful_str.plain])
    | utf8 text => exact Json.plain_record (by simp [Json.faithful_str.plain])
    | blank => exact Json.faithful_str.plain "empty"
  read_write e := by
    cases e <;> rfl

theorem Pool.faithful : Faithful Pool.toJson Pool.ofJson where
  plain p := PoolEntry.faithful.list.plain p.entries
  read_write p := by rw [ofJson, toJson, PoolEntry.faithful.list.read_write, Option.map_some]

theorem InnerEntry.faithful : Faithful InnerEntry.toJson InnerEntry.ofJson where
  plain e := by
    refine Json.plain_record ?_
    simp [Json.faithful_uint16.plain, Access.faithful.plain]
  read_write e := by
    rw [ofJson, toJson, Json.slots_record (by rfl) (by decide)]
    simp [Json.faithful_uint16.read_write, Access.faithful.read_write]

theorem CatchEntry.faithful : Faithful CatchEntry.toJson CatchEntry.ofJson where
  plain e := by
    refine Json.plain_record ?_
    simp [Json.faithful_uint16.plain, Json.faithful_uint32.plain]
  read_write e := by
    rw [ofJson, toJson, Json.slots_record (by rfl) (by decide)]
    simp [Json.faithful_uint16.read_write, Json.faithful_uint32.read_write]

theorem EnclosingMethod.faithful : Faithful EnclosingMethod.toJson EnclosingMethod.ofJson where
  plain m := by
    refine Json.plain_record ?_
    simp [Json.faithful_str.plain, Json.faithful_text?.plain]
  read_write m := by
    rw [ofJson, toJson, Json.slots_record (by rfl) (by decide)]
    simp [Json.faithful_str.read_write, Json.faithful_text?.read_write]

theorem Method.faithful : Faithful Method.toJson Method.ofJson where
  plain m := by
    refine Json.plain_record ?_
    simp [Json.faithful_str.plain, Json.faithful_bool.plain, Access.faithful.plain, CatchEntry.faithful.list.plain]
  read_write m := by
    rw [ofJson, toJson, Json.slots_record (by rfl) (by decide)]
    simp [Json.faithful_str.read_write, Json.faithful_bool.read_write, Access.faithful.read_write,
      CatchEntry.faithful.list.read_write]

theorem ClassFile.faithful : Faithful ClassFile.toJson ClassFile.ofJson where
  plain c := by
    refine Json.plain_record ?_
    simp [Json.faithful_str.plain, Json.faithful_text?.plain, Json.faithful_strings.plain, Json.faithful_bool.plain,
      Access.faithful.plain, Pool.faithful.plain, InnerEntry.faithful.list.plain,
      (EnclosingMethod.faithful.opt rfl).plain, Method.faithful.list.plain]
  read_write c := by
    rw [ofJson, toJson, Json.slots_record (by rfl) (by decide)]
    simp [Json.faithful_str.read_write, Json.faithful_text?.read_write, Json.faithful_strings.read_write,
      Json.faithful_bool.read_write, Access.faithful.read_write, Pool.faithful.read_write,
      InnerEntry.faithful.list.read_write, (EnclosingMethod.faithful.opt rfl).read_write,
      Method.faithful.list.read_write]

theorem CallSite.faithful : Faithful CallSite.toJson CallSite.ofJson where
  plain s := by
    refine Json.plain_record ?_
    simp [Json.faithful_str.plain, Json.faithful_uint8.plain]
  read_write s := by
    rw [ofJson, toJson, Json.slots_record (by rfl) (by decide)]
    simp [Json.faithful_str.read_write, Json.faithful_uint8.read_write]

theorem CorruptedClass.faithful : Faithful CorruptedClass.toJson CorruptedClass.ofJson where
  plain c := by
    refine Json.plain_record ?_
    simp [Json.faithful_str.plain]
  read_write c := by
    rw [ofJson, toJson, Json.slots_record (by rfl) (by decide)]
    simp [Json.faithful_str.read_write]

namespace Batch

theorem faithful : Faithful toJson ofJson where
  plain b := by
    refine Json.plain_record ?_
    simp [ClassFile.faithful.list.plain, CorruptedClass.faithful.list.plain, CallSite.faithful.list.plain]
  read_write b := by
    rw [ofJson, toJson, Json.slots_record (by rfl) (by decide)]
    simp [ClassFile.faithful.list.read_write, CorruptedClass.faithful.list.read_write,
      CallSite.faithful.list.read_write]

/-- **A batch is read back from its text.** Nothing is asked of the text layer but that it parses back the value that it
printed. -/
theorem readWith_writeWith (print : Json → String) (parse : String → Option Json) (b : Batch)
    (hlayer : parse (print b.toJson) = some b.toJson) : readWith parse (b.writeWith print) = some b :=
  faithful.bind_read hlayer

/-- A batch with something in every part: each kind of pool entry, fields that are left empty and fields that are not,
and names that have to be escaped. -/
def sample : Batch where
  classes := [
    { name := "app/Main$1", access := ⟨0x21⟩, superClass := some "java/lang/Object", interfaces := ["app/\"Quoted\""]
      own := true, pool := ⟨[.blank, .className "app/Main", .utf8 "line\nbreak"]⟩
      innerClasses := [⟨1, 0, 2, ⟨8⟩⟩], enclosingMethod := some ⟨"app/Main", some "run", none⟩
      methods := [{ name := "run", descriptor := "()V", catches := [⟨0, 4, 8, 1⟩] }] },
    { name := "app/Empty" }]
  corrupted := [⟨"app/Broken", "truncated"⟩]
  callSites := [⟨"app/Main", "app/Main", "lambda$run$0", "()V", 6, "java/lang/Runnable", "run", "()V"⟩]

/-- The layer of this library, on a batch that has something in every part. -/
theorem readWith_writeWith_sample :
    Json.parse? sample.toJson.pretty = some sample.toJson ∧
      readWith Json.parse? (sample.writeWith Json.pretty) = some sample :=
  have hlayer := Json.parse?_pretty (faithful.plain sample)
  ⟨hlayer, readWith_writeWith Json.pretty Json.parse? sample hlayer⟩

/-- With the layer of this library every batch is read back. -/
theorem ofText_toText (b : Batch) : ofText b.toText = some b := by
  rw [ofText, readWith]
  exact faithful.bind_read (Json.parse?_pretty (faithful.plain b))

end Batch
end ClassNest
