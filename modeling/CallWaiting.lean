import CallWaiting.Broadcast.Hub
import CallWaiting.Form.Tables
import CallWaiting.Form.Values
import CallWaiting.Handset.Direct
import CallWaiting.Logging.Filter
import CallWaiting.Proofs.Broadcast.Delivery
import CallWaiting.Proofs.Controller.Prescription
import CallWaiting.Proofs.Form.Values
import CallWaiting.Proofs.Handset.Absence
import CallWaiting.Proofs.Handset.Career
import CallWaiting.Proofs.Handset.Choice
import CallWaiting.Proofs.Handset.Conversation
import CallWaiting.Proofs.Handset.Filing
import CallWaiting.Proofs.Handset.Interchange
import CallWaiting.Proofs.Handset.Masking
import CallWaiting.Proofs.Handset.Repetition
import CallWaiting.Proofs.Handset.Retention
import CallWaiting.Proofs.Handset.Roster
import CallWaiting.Proofs.Handset.Swap
import CallWaiting.Proofs.Logging.Precedence
import CallWaiting.Proofs.Preference.Canonical
import CallWaiting.Proofs.Preference.Collision
import CallWaiting.Proofs.Preference.Rendering
import CallWaiting.Proofs.Service.Coverage
import CallWaiting.Proofs.Service.Departure
import CallWaiting.Proofs.Service.Freshness
import CallWaiting.Proofs.Settings.Agreement
import CallWaiting.Proofs.Settings.Override
import CallWaiting.Proofs.Settings.Verbatim
import CallWaiting.Service.Exchange
import CallWaiting.Settings.Load
