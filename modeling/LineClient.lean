import LineClient.Main
import LineClient.Proofs.Link.Conservation
import LineClient.Proofs.Load.Scripted
import LineClient.Proofs.Load.Seeded
import LineClient.Proofs.Load.Summary
import LineClient.Proofs.Reading.Appended
import LineClient.Proofs.Series.Window
import LineClient.Proofs.Settings.Faultless
import LineClient.Proofs.Settings.Integers
import LineClient.Proofs.Telemetry.Course
import LineClient.Proofs.Telemetry.Curtailed
import LineClient.Proofs.Telemetry.Retry
import LineClient.Proofs.Written
import LineClient.Series.Handles
import LineClient.Proofs.Link.Keeps
import LineClient.Proofs.Series.Rows
import LineClient.Proofs.Telemetry.Keeps
import LineClient.Proofs.Telemetry.Looks
import LineClient.Proofs.Telemetry.Timely
import LineClient.Proofs.Link.Backdrop
import LineClient.Proofs.Files
import LineClient.Proofs.Telemetry.Ending
import LineClient.Proofs.Load.Schedule
import LineClient.Proofs.Load.Contained
import LineClient.Proofs.Telemetry.Extended
import LineClient.Proofs.Load.Answered
import LineClient.Proofs.Telemetry.Recognised
import LineClient.Proofs.Telemetry.Backoff
import LineClient.Proofs.Telemetry.Extremes
import LineClient.Proofs.Series.ReadBack
import LineClient.Proofs.Settings.Texts
