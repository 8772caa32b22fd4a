import GameText.Entry

namespace GameText.Entry

@[simp]
theorem build_complex {key : String} : build .printComplex (some key) none = .ok (.complex key) := rfl

@[simp]
theorem build_newLine : build .newLine none none = .ok newLine := rfl

@[simp]
theorem build_argument {command : Command} {data : Bytes} (fits : command.payload = .data) :
    build command none (some data) = .ok (.argument command data fits) := by
  unfold build ofFields
  split
  · rename_i form
    rw [fits] at form; cases form
  · rfl
  · rename_i form
    rw [fits] at form; cases form

theorem payload_of_bare {command : Command} (fits : command.isBare = true) : command.payload = .nothing := by
  unfold Command.isBare at fits
  exact (of_decide_eq_true fits).1

theorem bare_or_newLine {command : Command} (form : command.payload = .nothing) :
    command.isBare = true ∨ command = .newLine := by
  by_cases line : command = .newLine
  · exact .inr line
  · exact .inl (by simp [Command.isBare,form,line])

@[simp]
theorem build_bare {command : Command} (fits : command.isBare = true) :
    build command none none = .ok (.bare command fits) := by
  have form := payload_of_bare fits
  unfold build ofFields
  split
  · rename_i other
    rw [form] at other; cases other
  · rename_i other
    rw [form] at other; cases other
  · rw [dif_pos fits]; rfl

theorem build_same (entry : Entry) : build entry.command entry.text? entry.data? = .ok entry := by
  cases entry with
  | text content => rfl
  | complex key => rfl
  | lineBreak strayText strayData => rfl
  | bare command fits => exact build_bare fits
  | argument command data fits => exact build_argument fits

theorem text_of_command {entry : Entry} (shown : entry.command = .printText) : ∃ content, entry = .text content := by
  cases entry with
  | text content => exact ⟨content,rfl⟩
  | complex key => cases shown
  | lineBreak strayText strayData => cases shown
  | bare command fits =>
    change command = _ at shown
    subst shown
    cases fits
  | argument command data fits =>
    change command = _ at shown
    subst shown
    cases fits

end GameText.Entry
