import ReservationSystem.Client.Kept
import ReservationSystem.Client.Match
import ReservationSystem.Client.MyReservations
import ReservationSystem.Cluster.Agreement
import ReservationSystem.Cluster.Clocks
import ReservationSystem.Cluster.Commuting
import ReservationSystem.Cluster.Copies
import ReservationSystem.Cluster.Linearizable
import ReservationSystem.Cluster.Payload
import ReservationSystem.Cluster.Transparency
import ReservationSystem.Cluster.WireSteps
import ReservationSystem.Fleet.Isolation
import ReservationSystem.Gateway.Answering
import ReservationSystem.Gateway.Failover
import ReservationSystem.Node.Availability
import ReservationSystem.Node.Confirmed
import ReservationSystem.Node.Linearizable
import ReservationSystem.Node.Listing
import ReservationSystem.Node.Order
import ReservationSystem.Node.Quiescence
import ReservationSystem.Node.Replay
import ReservationSystem.Node.SlotNames
import ReservationSystem.Node.Slots
import ReservationSystem.Node.Tables
import ReservationSystem.Protocol.Framing
import ReservationSystem.Replication.Detection
import ReservationSystem.Replication.Timeline
import ReservationSystem.Site.Browsing
import ReservationSystem.Site.Modifying
import ReservationSystem.System.Bookings
import ReservationSystem.System.Failures
import ReservationSystem.System.Times
