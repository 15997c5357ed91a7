import MailMerge.CommandLine.Program
import MailMerge.Proofs.Reordering
import MailMerge.Proofs.Substitution
import Mathlib.Data.List.Forall2

/-!
# A check tells what a run would leave

A check looks for placeholders in a job's template. A run looks for them in the
template with a line's end behind it, which is another text, and an unfinished
placeholder at the end of the template is cut into other tokens there. But a
placeholder that arises across the seam would have its closing brace in the
line's end. So a line comes to what the template comes to, with the line's end
behind it, and the same placeholders stay at the same places (`ComesTo.line`).

The rest is bookkeeping: a report is empty exactly if no placeholder stays, and
the chunks of a run are the lines of its records.
-/

namespace MailMerge

/-! ## Lines -/

namespace Template

variable {object : Fields}

/-- The end of a line changes nothing in front of it. -/
theorem ComesTo.line {template : String} {text : List Char} {staying : List Placeholder}
    (h : ComesTo object 0 template.toList text staying) :
    ComesTo object 0 (ListStyle.lines.template template).toList (text ++ ['\n']) staying := by
  have hend : ComesTo object (0 + byteLength template.toList) ['\n'] ['\n'] [] :=
    .character (noneAhead_of_ne_dollar (by decide)) (.nothing _)
  have hseam : ¬Straddled template.toList ['\n'] := fun hlies =>
    absurd hlies.closing_mem (by decide)
  have hline := h.append hend hseam
  rw [List.append_nil] at hline
  rw [ListStyle.template, String.toList_append]
  exact hline

theorem text_rendering_line (object : Fields) (template : String) :
    (rendering object (ListStyle.lines.template template)).text
      = (rendering object template).text ++ ['\n'] :=
  ((comesTo_rendering ..).unique (comesTo_rendering object template).line).1

end Template

theorem Job.chunk_lines (job : Job) (record : Record) :
    job.chunk .lines record
      = utf8Bytes ((Template.rendering record.fields job.template).text ++ ['\n']) := by
  rw [Job.chunk, Template.text_rendering_line]

/-! ## Reports -/

theorem Report.draw_ne_empty (report : Report) (name : String) (text : List Char) :
    report.draw name text ≠ "" := by
  intro h
  have hlist := congrArg String.toList h
  unfold Report.draw Report.paint at hlist
  simp only [] at hlist
  split at hlist <;> simp at hlist

theorem Template.drawStaying_eq_empty_iff {template name : String}
    {missing : List Placeholder} :
    Template.drawStaying template name missing = "" ↔ missing = [] := by
  cases missing with
  | nil => exact ⟨fun _ => rfl, fun _ => rfl⟩
  | cons first rest =>
      exact ⟨fun h => (Report.draw_ne_empty _ _ _ h).elim, fun h => by cases h⟩

theorem Job.reports_empty_iff {job : Job} :
    (∀ report ∈ job.reports, report = "") ↔ ∀ missing ∈ job.unresolved, missing = [] := by
  unfold Job.reports
  constructor
  · intro h missing hmem
    obtain ⟨index, hindex, rfl⟩ := List.getElem_of_mem hmem
    exact Template.drawStaying_eq_empty_iff.mp
      (h _ (List.mem_mapIdx.mpr ⟨index, hindex, rfl⟩))
  · intro h report hmem
    obtain ⟨index, hindex, rfl⟩ := List.mem_mapIdx.mp hmem
    exact Template.drawStaying_eq_empty_iff.mpr (h _ (List.getElem_mem hindex))

namespace CommandLine

theorem code_checkJob_eq_zero_iff {job : Job} :
    (checkJob job).code = 0 ↔ ∀ missing ∈ job.unresolved, missing = [] := by
  rw [← Job.reports_empty_iff]
  unfold checkJob
  simp only []
  split
  next hempty => simpa [String.isEmpty_iff] using hempty
  next hempty => simpa [String.isEmpty_iff] using hempty

/-- With a job at hand, the program checks it or runs it. -/
theorem perform_of_parse {options : Options} {input : List UInt8}
    {read : String → Except ReadError String} {text : String} {loaded : Job}
    (hdemo : options.demo = false) (hsource : source options input read = .ok text)
    (hparse : Job.parse text = .ok loaded) :
    perform options input read
      = if options.check then checkJob (override options loaded)
        else .ofOutcome ((override options loaded).run .lines .unlimited) := by
  unfold perform
  rw [hdemo, if_neg Bool.false_ne_true, hsource]
  simp only [hparse]

open Template in
/-- A check and a run of a job agree on what stays. Each record of a run that
succeeds is a chunk, and the placeholders that stay in the line that it is filled
into are those, at the same places, that the check finds in the template. The
check ends well if it finds none for any record; a run that does not sort then
writes the template with something in place of all its placeholders, and one
line's end, for each record. -/
theorem check_agrees_with_run (options : Options) (loaded : Job) :
    let job := override options loaded
    (∀ input read text, options.demo = false → source options input read = .ok text →
      Job.parse text = .ok loaded →
        perform { options with check := true } input read = checkJob job ∧
        perform { options with check := false } input read
          = .ofOutcome (job.run .lines .unlimited)) ∧
    (∀ sink, (job.run .lines sink).result = .ok () →
      ∃ order : List Record, order.Perm job.records ∧
        WritesInTurn (job.run .lines) (order.map (job.chunk .lines))) ∧
    List.Forall₂ (fun record missing => ∃ text,
        ComesTo record.fields 0 job.template.toList text missing ∧
        ComesTo record.fields 0 (ListStyle.lines.template job.template).toList
          (text ++ ['\n']) missing ∧
        job.chunk .lines record = utf8Bytes (text ++ ['\n']))
      job.records job.unresolved ∧
    ((checkJob job).code = 0 ↔ ∀ missing ∈ job.unresolved, missing = []) ∧
    ((checkJob job).code = 0 → job.sortBy = none →
      ∃ texts, List.Forall₂ (fun record text =>
          ComesTo record.fields 0 job.template.toList text []) job.records texts ∧
        WritesInTurn (job.run .lines) (texts.map fun text => utf8Bytes (text ++ ['\n']))) := by
  intro job
  refine ⟨?_, ?_, ?_, code_checkJob_eq_zero_iff, ?_⟩
  · intro input read text hdemo hsource hparse
    exact ⟨@perform_of_parse { options with check := true } _ _ _ _ hdemo hsource hparse,
      @perform_of_parse { options with check := false } _ _ _ _ hdemo hsource hparse⟩
  · intro sink hrun
    obtain ⟨order, hperm, hsame⟩ := Job.run_eq_run_inOrder hrun
    exact ⟨order, hperm, hsame ▸ job.writesInTurn_inOrder order .lines⟩
  · rw [Job.unresolved, List.forall₂_map_right_iff, List.forall₂_same]
    intro record _
    have htemplate := comesTo_rendering record.fields job.template
    exact ⟨_, htemplate, htemplate.line, job.chunk_lines record⟩
  · intro hcode hkey
    have hnone := code_checkJob_eq_zero_iff.mp hcode
    refine ⟨job.records.map fun record => (rendering record.fields job.template).text, ?_, ?_⟩
    · rw [List.forall₂_map_right_iff, List.forall₂_same]
      intro record hrecord
      have htemplate := comesTo_rendering record.fields job.template
      rwa [hnone _ (List.mem_map_of_mem hrecord)] at htemplate
    · rw [List.map_map, Job.run_of_unsorted hkey]
      have hchunks := job.writesInTurn_inOrder job.records .lines
      rwa [List.map_congr_left fun record _ => job.chunk_lines record] at hchunks

end CommandLine

end MailMerge
