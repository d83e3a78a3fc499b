import CallFlow.Form.Field
import CallFlow.Json.Display
import CallFlow.Text.Slice

/-!
# Prompts of Scripted Steps

A scripted step either speaks a line and goes on at once, or speaks it and waits for the
caller. Appointments and forms also make the agent say a fixed phrase when they are complete,
and the conditions on their edges wait for that phrase.

## Sections

1. Phrases and rules
2. Lines
3. Appointments
4. Forms
-/

namespace CallFlow.Prompt

/-! ## §1 Phrases and rules -/

/-- What the agent says when an appointment is booked. -/
def appointmentPhrase : String := "Your appointment has been booked successfully."

/-- What the agent says when a form is saved. -/
def formPhrase : String := "Your information has been saved successfully."

/-- The tool that books appointments. -/
def appointmentTool : String := "book_appointment"

/-- The tool that saves the answers to a form. -/
def formTool : String := "submit_form"

/-- The name of a form that has none. -/
def defaultFormName : String := "Data Collection"

/-- How phone numbers are spoken. -/
def phoneNumberRule : String := "\n".intercalate [
  "PHONE NUMBER PRONUNCIATION: When reading back or confirming any phone number, ALWAYS " ++
    "speak each digit separately with brief pauses. For example:",
  "- \"9990155993\" should be spoken as \"nine, nine, nine, zero, one, five, five, nine, " ++
    "nine, three\"",
  "- Never read phone numbers as large numbers (do NOT say \"nine hundred ninety-nine " ++
    "million...\")",
  "- Group digits in sets of 3 or 4 for natural reading rhythm"]

/-- What makes the agent wait. -/
def waitSuffix : String := "Then stop speaking and wait for response."

/-! ## §2 Lines -/

/-- What makes the agent speak a line. -/
def sayExactly (text : String) : String := "Say exactly: '" ++ text ++ "'"

/-- Speaks a line and goes on. The edge that leaves the step is unconditional, so nothing here
may make the agent wait. -/
def sayAndProceed (text : String) : String :=
  sayExactly text ++ " Do not add anything else. " ++
    "After speaking, proceed immediately to the next step."

/-- Speaks a question and waits. -/
def ask (question : String) : String :=
  sayExactly question ++ " " ++ waitSuffix ++ " Do not add anything else."

/-! ## §3 Appointments -/

/-- Speaks an introduction and books an appointment. -/
def bookAppointment (introduction : String) (config : Members) : String :=
  let setting := Json.member config
  let serviceName :=
    Json.displayFirst [setting "serviceName", setting "service"] "appointment"
  let duration := Json.displayFirst [setting "duration"] "30"
  "\n".intercalate [
    sayExactly introduction,
    "",
    "APPOINTMENT BOOKING INSTRUCTIONS:",
    "1. After the caller responds, collect the following information:",
    "   - Their name (if not already known)",
    "   - Preferred date for the appointment",
    "   - Preferred time for the appointment",
    "   - Phone number (use the caller's number if available)",
    "   - Email address (optional)",
    "",
    "2. Once you have collected the date, time, and caller name, IMMEDIATELY use the " ++
      appointmentTool ++ " tool to save the appointment.",
    "   - Pass the caller's name as contactName",
    "   - Pass the caller's phone number as contactPhone",
    "   - Pass the date as appointmentDate (format: YYYY-MM-DD)",
    "   - Pass the time as appointmentTime (format: HH:MM)",
    "   - Pass " ++ duration ++ " as duration",
    "   - Pass \"" ++ serviceName ++ "\" as serviceName",
    "   - Pass any notes as notes",
    "",
    "3. CRITICAL: After successfully booking, you MUST say exactly: \"" ++
      appointmentPhrase ++ "\" This exact phrase signals completion.",
    "4. If booking fails, apologize and try again or offer to transfer to a human.",
    "5. Only after saying \"" ++ Text.dropLast appointmentPhrase ++
      "\" should you proceed to the next step.",
    "",
    phoneNumberRule,
    "",
    waitSuffix]

/-! ## §4 Forms -/

/-- What is said about the kind of answer that a field expects. -/
def fieldHint : String → Option String
  | "yes_no" => some "Accept yes/no, yeah/nah, affirmative/negative responses"
  | "number" => some "Collect a number"
  | "email" => some "Collect email address, confirm spelling"
  | "phone" => some "Accept any phone format"
  | "rating" => some "Collect a rating, typically 1-5 or 1-10"
  | "date" => some "Accept natural language dates like \"tomorrow\", \"next week\""
  | _ => none

/-- The remark on the answer to a field: its choices, or a hint. -/
def fieldRemark (f : FormField) : Option String :=
  if f.fieldType = "multiple_choice" then
    match f.options with
    | some (o :: rest) => some ("Options: " ++ ", ".intercalate (o :: rest))
    | _ => none
  else fieldHint f.fieldType

/-- The instruction for a field that is asked at the given position. -/
def fieldInstruction (index : Nat) (f : FormField) : String :=
  toString index ++ ". Ask: \"" ++ f.question ++ "\"" ++
    ((fieldRemark f).map fun r => " (" ++ r ++ ")").getD "" ++
    (if f.isRequired then " [REQUIRED]" else "")

/-- Fields by their order; equal ones stay as they are. -/
def inOrder (fields : List FormField) : List FormField :=
  fields.mergeSort fun a b => a.order ≤ b.order

/-- The instructions for all fields, numbered from one. -/
def fieldInstructions (fields : List FormField) : List String :=
  (inOrder fields).zipIdx.map fun (f, i) => fieldInstruction (i + 1) f

/-- What introduces the fields of a form. -/
def formHeading (formName : String) : String :=
  "FORM COLLECTION INSTRUCTIONS for \"" ++ formName ++ "\":"

/-- Speaks an introduction, asks the fields one after the other and saves the answers. -/
def collectFields (introduction formName : String) (fields : List FormField) : String :=
  "\n".intercalate [
    sayExactly introduction,
    "",
    formHeading formName,
    "After the caller responds, collect the following information in order:",
    "",
    "\n".intercalate (fieldInstructions fields),
    "",
    "IMPORTANT RULES:",
    "1. Ask each question one at a time, wait for the response before proceeding.",
    "2. If the caller's response is unclear, politely ask for clarification.",
    "3. For required fields, do not skip - gently re-ask if needed.",
    "4. Once all required fields are collected, use the " ++ formTool ++
      " tool to save the responses.",
    "5. CRITICAL: After successful submission, you MUST say exactly: \"" ++ formPhrase ++
      "\" This exact phrase signals completion.",
    "6. If submission fails, apologize and try again.",
    "7. Only after saying \"" ++ Text.dropLast formPhrase ++
      "\" should you proceed to the next step.",
    "",
    phoneNumberRule,
    "",
    waitSuffix]

/-- Speaks an introduction and lets the agent find the questions itself. -/
def collectFreely (introduction formName : String) : String :=
  "\n".intercalate [
    sayExactly introduction,
    "",
    formHeading formName,
    "After speaking the introduction, collect the requested information from the caller.",
    "Ask questions one at a time and wait for responses.",
    "Once all information is collected, use the " ++ formTool ++
      " tool to save the responses.",
    "",
    waitSuffix]

/-- Speaks an introduction and collects the answers to a form. -/
def collectForm (introduction formName : String) (fields : List FormField) : String :=
  if fields.isEmpty then collectFreely introduction formName
  else collectFields introduction formName fields

end CallFlow.Prompt
