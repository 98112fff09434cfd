import Mender.World

/-! The system prompt: what the model is told about fixing, and the form its answer has to take. A file
of the project can take the place of the guidelines, never that of the form. -/

namespace Mender.Prompt

open Mender.Text

/-- The file of a project that holds guidelines of its own. -/
def guidelinesFile : String := "custom-fix-prompt.md"

def defaultGuidelines : String :=
  "\n".intercalate [
    "",
    "  <!--  1. PURPOSE  -->",
    "  <purpose>",
    "    You fix PHPStan errors in a PHP project.",
    "    Each request carries a batch of errors grouped by file, together with the",
    "    full, line-numbered contents of every file involved.",
    "  </purpose>",
    "",
    "  <!--  2. HOW TO FIX  -->",
    "  <guidelines>",
    "    <minimal>Change as little as possible. Fix the reported error and nothing else.</minimal>",
    "    <behaviour>Never change runtime behaviour to silence the analyzer. Prefer precise types and PHPDoc over casts or suppression comments.</behaviour>",
    "    <noIgnore>Do not add @phpstan-ignore comments or baseline entries.</noIgnore>",
    "    <lineNumbers>Line numbers refer to the numbered file contents in the request, 1-based.</lineNumbers>",
    "    <oneLinePerFix>",
    "      A fix replaces exactly one existing line. To insert code (for example a",
    "      PHPDoc block above a method), replace the line with several lines: the",
    "      new lines followed by the original line.",
    "    </oneLinePerFix>",
    "    <noOverlap>Never emit two fixes for the same file and line. Merge them into one.</noOverlap>",
    "    <order>List the fixes for one file from the highest line number to the lowest. Fixes are applied in order, and a multi-line replacement shifts every line below it.</order>",
    "    <skip>If you cannot fix an error with confidence, leave it out.</skip>",
    "  </guidelines>",
    ""]

def opening : String :=
  "\n".intercalate [
    "<!--  SYSTEM PROMPT : PHPSTAN FIXER  -->",
    "<systemPrompt>",
    "",
    "  "]

def answerForm : String :=
  "\n".intercalate [
    "",
    "",
    "  <!--  3. OUTPUT FORMAT EXPECTED FROM THE LLM  -->",
    "  <responseFormat>",
    "    <!--",
    "      Emit a single <fixes> element holding one <fix> per changed line.",
    "",
    "      ✦ DO NOT include any other top-level text.",
    "      ✦ Wrap <original> and <fixed> in CDATA so code is copied verbatim.",
    "      ✦ Keep the indentation of the line you replace.",
    "      ✦ An empty <fixes></fixes> means you have nothing to propose.",
    "    -->",
    "    <fixes>",
    "      <fix>",
    "        <!-- project-relative path exactly as given in the request -->",
    "        <file>src/Models/User.php</file>",
    "",
    "        <!-- 1-based line number of the line being replaced -->",
    "        <line>15</line>",
    "",
    "        <!-- the current content of that line -->",
    "        <original><![CDATA[    private $email;]]></original>",
    "",
    "        <!-- the replacement; may span several lines -->",
    "        <fixed><![CDATA[    private string $email;]]></fixed>",
    "      </fix>",
    "",
    "      <!-- repeat additional <fix> blocks as needed -->",
    "    </fixes>",
    "  </responseFormat>",
    "</systemPrompt>"]

def system (guidelines : String) : String := opening ++ guidelines ++ answerForm

/-- The system prompt for a project. Guidelines that are there but cannot be read are warned of, and
the default ones stand. -/
def systemFor (projectPath : String) : Act String := do
  let w ← get
  let shown := Path.join projectPath.toList guidelinesFile.toList
  match w.tree.locate w.directory shown with
  | none => return system defaultGuidelines
  | some p =>
    match w.readFile p (String.ofList shown) with
    | .ok guidelines => return system (String.ofList guidelines)
    | .error f =>
      World.say .warn ("Failed to read custom prompt file: Error: " ++ f.message)
      return system defaultGuidelines

end Mender.Prompt
