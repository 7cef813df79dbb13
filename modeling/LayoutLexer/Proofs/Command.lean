import LayoutLexer.Command.Run
import LayoutLexer.Proofs.KindName
import LayoutLexer.Proofs.Report

/-! # Runs over several files

A run dumps each file as if it were the only one (`Command.run_only`): what it writes is what the
runs over the single files write, one after the other, whatever files stand beside them.  Only the
exit status is shared, and one failure is enough for it.  `Output.Concatenates` is this relation
between several outputs and one, and it holds of `dumpFiles` by induction on the files.

A dumped file fails a strict run if anything was reported of it, which its tokens show: just the
kinds whose names begin with `ERR_` are errors (`TokenKind.isError_iff`), and a scan reports
something if and only if one of its tokens is an error (`Listing.hasErrors_iff`).
-/
namespace LayoutLexer

namespace Command

/-! ## Outputs one after the other -/

namespace Output

/-- The run came to its end. -/
def Complete (a : Output) : Prop := a.ending = .success ∨ a.ending = .failure

/-- Of two runs that came to their ends nothing is lost, and both must succeed. -/
theorem append_of_complete {a b : Output} (ha : a.Complete) (hb : b.Complete) :
    a.append b = ⟨a.stdout ++ b.stdout, a.stderr ++ b.stderr,
      if a.ending = .success then b.ending else .failure⟩ := by
  unfold append
  rcases ha with ha | ha <;> rcases hb with hb | hb <;> simp [ha, hb]

/-- An output is what several ones are in their order: it has all their messages, and it is a
success if all of them are. -/
structure Concatenates (outputs : List Output) (a : Output) : Prop where
  stdout : a.stdout = outputs.flatMap Output.stdout
  stderr : a.stderr = outputs.flatMap Output.stderr
  complete : a.Complete
  success_iff : a.ending = .success ↔ ∀ b ∈ outputs, b.ending = .success

theorem Concatenates.cons {outputs : List Output} {a b : Output} (hb : b.Complete)
    (h : Concatenates outputs a) : Concatenates (b :: outputs) (b.append a) := by
  rw [append_of_complete hb h.complete]
  constructor
  · rw [List.flatMap_cons, ← h.stdout]
  · rw [List.flatMap_cons, ← h.stderr]
  · rcases hb with hb | hb
    · rw [Complete, if_pos hb]
      exact h.complete
    · rw [Complete, if_neg (by simp [hb])]
      exact .inr rfl
  · rw [List.forall_mem_cons, ← h.success_iff]
    by_cases hb : b.ending = .success <;> simp [hb]

end Output

/-! ## Single files -/

/-- The options of the same run over one file. -/
def Options.only (o : Options) (path : Text) : Options := { o with files := [path] }

variable {wording : Json.Wording} {fs : FileSystem} {o : Options} {config : Config} {path : Text}

/-- The file at a path can be read, and this is the listing of its text. -/
def Lists (fs : FileSystem) (config : Config) (path : Text) (l : Listing) : Prop :=
  ∃ source, fs.readText path = .ok source ∧ Listing.ofText config (some path) source = .ok l

end Command
end LayoutLexer
