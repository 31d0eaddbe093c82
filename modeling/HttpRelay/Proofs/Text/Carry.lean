import HttpRelay.Text.Utf8

namespace HttpRelay.Utf8

def run (s : Carry) : Bytes → List Char × Carry
  | [] => ([], s)
  | b :: rest => ((step s b).1 ++ (run (step s b).2 rest).1, (run (step s b).2 rest).2)

theorem run_append (s : Carry) (bs cs : Bytes) :
    run s (bs ++ cs) = ((run s bs).1 ++ (run (run s bs).2 cs).1, (run (run s bs).2 cs).2) := by
  induction bs generalizing s with
  | nil => rfl
  | cons b bs ih =>
    rw [List.cons_append, run, ih]
    simp only [run, List.append_assoc]

theorem toList_pushAll (text : String) (cs : List Char) :
    (pushAll text cs).toList = text.toList ++ cs := by
  induction cs generalizing text with
  | nil => simp [pushAll]
  | cons c cs ih =>
    have := ih (text.push c)
    simpa [pushAll, String.toList_push] using this

theorem scan_eq_run (text : String) (s : Carry) (bs : Bytes) :
    (scan text s bs).1.toList = text.toList ++ (run s bs).1 ∧
      (scan text s bs).2 = (run s bs).2 := by
  induction bs generalizing text s with
  | nil => simp [scan, run]
  | cons b bs ih =>
    obtain ⟨htext, hstate⟩ := ih (pushAll text (step s b).1) (step s b).2
    refine ⟨?_, hstate⟩
    rw [scan, htext, toList_pushAll, run, List.append_assoc]

theorem toList_lossy (bs : Bytes) :
    (lossy bs).toList = (run none bs).1 ++ flush (run none bs).2 := by
  obtain ⟨htext, hstate⟩ := scan_eq_run "" none bs
  simp only [lossy, toList_pushAll, htext, hstate, String.toList_empty, List.nil_append]

end HttpRelay.Utf8
