import Timetable.Reading.Basic
import Timetable.Evaluation.Session
import Timetable.Solar.Sun
import Timetable.Proofs.Evaluation.State
import Timetable.Proofs.Evaluation.NextChange
import Timetable.Proofs.Evaluation.Coverage
import Timetable.Proofs.Evaluation.Enumeration
import Timetable.Proofs.Evaluation.Meaning
import Timetable.Proofs.Reading.WellFormed
import Timetable.Proofs.Reading.Concatenation
import Timetable.Proofs.Evaluation.Session
import Timetable.Proofs.Evaluation.Night
import Timetable.Proofs.Evaluation.Resumption
import Timetable.Proofs.Tidy.Idempotence
import Timetable.Proofs.Reading.Years
import Timetable.Proofs.Schedule.Algebra
import Timetable.Proofs.Evaluation.Elsewhere
import Timetable.Proofs.Reading.Tidied
import Timetable.Proofs.Reading.Squeezed
import Timetable.Proofs.Evaluation.AlwaysOpen
import Timetable.Proofs.Evaluation.Failing
import Timetable.Proofs.Evaluation.Dependence
import Timetable.Proofs.Evaluation.Stopping
import Timetable.Proofs.Solar.Calls
import Timetable.Proofs.Reading.TidiedCanonical
import Timetable.Proofs.Building.Rules
import Timetable.Proofs.Arithmetic.Safety
import Timetable.Proofs.Evaluation.Weeks
import Timetable.Proofs.Evaluation.DateRanges
import Timetable.Proofs.Tidy.Rounds
import Timetable.Proofs.Tidy.Comments
import Timetable.Proofs.Evaluation.DayReport
