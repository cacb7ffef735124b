import IndexAccess.CommandLine.Arguments
import Mathlib.Data.List.Basic

/-!
# Flags among arguments

The read command takes two flags for logging, which may stand anywhere before
two dashes.  Further flags add to the flags that are there and change nothing
else about the command.  The file is the first of the arguments, whatever its
name.
-/

namespace IndexAccess
namespace CommandLine

def logFlags : List String := ["--debug", "--verbose"]

/-- A command with the flags of a list added to its own. -/
def Command.withFlags (flags : List String) : Command → Command
  | .read file indexes debug verbose =>
    .read file indexes (flags.contains "--debug" || debug)
      (flags.contains "--verbose" || verbose)
  | command => command

section Splitting

variable {arg : String} {flags before : List String}

theorem split_option (hdashes : arg ≠ "--") (harg : isOption arg = true)
    (rest : List String) :
    split (arg :: rest) = { split rest with
      options := arg :: (split rest).options } := by
  rw [split, beq_false_of_ne hdashes, harg]
  rfl

theorem split_argument (harg : isOption arg = false) (rest : List String) :
    split (arg :: rest) = { split rest with
      arguments := arg :: (split rest).arguments } := by
  have hdashes : arg ≠ "--" := by
    rintro rfl
    cases harg
  rw [split, beq_false_of_ne hdashes, harg]
  rfl

theorem split_append (hbefore : "--" ∉ before) (after : List String) :
    split (before ++ after) =
      ⟨(split before).options ++ (split after).options,
        (split before).arguments ++ (split after).arguments⟩ := by
  induction before with
  | nil => rfl
  | cons arg rest ih =>
      have hdashes : arg ≠ "--" :=
        fun heq => hbefore (heq ▸ List.mem_cons_self)
      have hrest := ih fun hmem => hbefore (List.mem_cons_of_mem arg hmem)
      rw [List.cons_append]
      by_cases harg : isOption arg = true
      · rw [split_option hdashes harg, split_option hdashes harg, hrest]
        rfl
      · have hargument := Bool.eq_false_iff.2 harg
        rw [split_argument hargument, split_argument hargument, hrest]
        rfl

theorem ne_dashes_of_mem_logFlags (h : arg ∈ logFlags) :
    arg ≠ "--" ∧ isOption arg = true := by
  rcases List.mem_pair.1 h with rfl | rfl <;> decide

theorem not_mem_dashes_of_logFlags (hflags : ∀ flag ∈ flags, flag ∈ logFlags) :
    "--" ∉ flags :=
  fun hmem => (ne_dashes_of_mem_logFlags (hflags _ hmem)).1 rfl

theorem split_of_logFlags (hflags : ∀ flag ∈ flags, flag ∈ logFlags) :
    split flags = ⟨flags, []⟩ := by
  induction flags with
  | nil => rfl
  | cons flag rest ih =>
      have hflag := ne_dashes_of_mem_logFlags (hflags flag (by simp))
      rw [split_option hflag.1 hflag.2,
        ih fun other hother => hflags other (List.mem_cons_of_mem flag hother)]

end Splitting

/-- The read command that options and arguments make. -/
def Split.readCommand? : Split → Option Command
  | ⟨options, file :: index :: indexes⟩ =>
    if options.all logFlags.contains then
      some (.read file (index :: indexes) (options.contains "--debug")
        (options.contains "--verbose"))
    else none
  | _ => none

theorem parse?_read (args : List String) :
    parse? ("read" :: args) = (split args).readCommand? := by
  have hname : parse? ("read" :: args) = ofName? "read" args := by
    cases args <;> rfl
  rw [hname, ofName?, splitKnown?]
  obtain ⟨options, arguments⟩ := split args
  by_cases hknown : options.all ["--debug", "--verbose"].contains = true
  · rw [if_pos hknown]
    rcases arguments with _ | ⟨file, _ | ⟨index, indexes⟩⟩
    · rfl
    · rfl
    · exact (if_pos hknown).symm
  · rw [if_neg hknown]
    rcases arguments with _ | ⟨file, _ | ⟨index, indexes⟩⟩
    · rfl
    · rfl
    · exact (if_neg hknown).symm

theorem eq_read_of_parse? {args : List String} {command : Command}
    (h : parse? ("read" :: args) = some command) :
    ∃ file indexes debug verbose, command =
      .read file indexes debug verbose := by
  rw [parse?_read] at h
  unfold Split.readCommand? at h
  split at h
  next =>
    split at h
    next => exact ⟨_, _, _, _, (Option.some.inj h).symm⟩
    next => cases h
  next => cases h

/-- Flags may be added anywhere before two dashes. -/
theorem parse?_read_flags {flags before : List String}
    (hflags : ∀ flag ∈ flags, flag ∈ logFlags) (hbefore : "--" ∉ before)
    (after : List String) :
    parse? ("read" :: (before ++ (flags ++ after))) =
      (parse? ("read" :: (before ++ after))).map
        (Command.withFlags flags) := by
  have hknown : flags.all logFlags.contains = true := by
    rw [List.all_eq_true]
    exact fun flag hflag => List.contains_iff_mem.2 (hflags flag hflag)
  rw [parse?_read, parse?_read, split_append hbefore, split_append hbefore,
    split_append (not_mem_dashes_of_logFlags hflags), split_of_logFlags hflags,
    List.nil_append]
  obtain ⟨options, arguments⟩ := split before
  obtain ⟨later, laterArguments⟩ := split after
  dsimp only
  rcases arguments ++ laterArguments with _ | ⟨file, _ | ⟨index, indexes⟩⟩
  · rfl
  · rfl
  · simp only [Split.readCommand?, List.all_append, hknown, Bool.true_and]
    split
    · simp [Command.withFlags, Bool.or_left_comm]
    · rfl

def Command.ofFile (file : String) : List String × Bool × Bool → Command
  | (indexes, debug, verbose) => .read file indexes debug verbose

/-- How a command reads depends on the file by its name alone. -/
theorem exists_parse?_read_file (args : List String) :
    ∃ parsed, ∀ file, isOption file = false →
      parse? ("read" :: file :: args) =
        Option.map (Command.ofFile file) parsed := by
  have hparse : ∀ file, isOption file = false →
      parse? ("read" :: file :: args) =
      Split.readCommand? ⟨(split args).options,
        file :: (split args).arguments⟩ := by
    intro file hfile
    rw [parse?_read, split_argument hfile]
  generalize split args = parts at hparse
  obtain ⟨options, arguments⟩ := parts
  cases arguments with
  | nil => exact ⟨none, hparse⟩
  | cons index indexes =>
      by_cases hknown : options.all logFlags.contains = true
      · refine ⟨some (index :: indexes, options.contains "--debug",
          options.contains "--verbose"), fun file hfile => ?_⟩
        rw [hparse file hfile, Split.readCommand?, if_pos hknown]
        rfl
      · refine ⟨none, fun file hfile => ?_⟩
        rw [hparse file hfile, Split.readCommand?, if_neg hknown]
        rfl

end CommandLine
end IndexAccess
